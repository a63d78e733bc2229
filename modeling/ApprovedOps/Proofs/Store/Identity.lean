import ApprovedOps.Proofs.Store.Found
import ApprovedOps.Proofs.Store.Shelved

/-! # What the name of a file tells

The name of a file tells the namespace and the name it was composed of, if neither has a slash and
the name has no dot. The namespace may have dots anywhere and may look like an extension. So records
and fragments of different namespaces or names never have the same path.
-/

namespace ApprovedOps

open FileName (compose)

/-- Can the namespace and the name be told from a file name that is composed of them? -/
structure FileName.Told (ns name : Text) : Prop where
  below : .char '/' ∉ ns
  some_ : name ≠ []
  dotless : .char '.' ∉ name
  slashless : .char '/' ∉ name

theorem Path.join_cancel {dir file file' : Text} (relative : file.head? ≠ some (.char '/'))
    (relative' : file'.head? ≠ some (.char '/')) (same : join dir file = join dir file') :
    file = file' := by
  rw [join_relative dir relative, join_relative dir relative'] at same
  by_cases closed : dir = [] ∨ Text.endsWith dir [.char '/'] = true
  · rw [if_pos closed, if_pos closed] at same
    exact List.append_cancel_left same
  · rw [if_neg closed, if_neg closed] at same
    exact (List.cons.inj (List.append_cancel_left same)).2

namespace FileName.Told

variable {ns name ns' name' ext : Text} (told : Told ns name)

include told

theorem slashless_compose (slash : .char '/' ∉ ext) : .char '/' ∉ compose ns name ext :=
  FileName.slashless_compose told.below told.slashless slash

/-- In any directory, a file whose name is composed has the stem that it was composed with. -/
theorem stem_join (dir ext : Text) (slash : .char '/' ∉ ext) (dot : .char '.' ∉ ext) :
    FileName.stem (Path.join dir (compose ns name (.char '.' :: ext))) = compose ns name [] := by
  have file : .char '/' ∉ compose ns name (.char '.' :: ext) :=
    told.slashless_compose (by simp [slash])
  have last : FileName.base (compose ns name (.char '.' :: ext)) =
      compose ns name (.char '.' :: ext) := by
    rw [FileName.base, FileName.splitLast?_none file]
  have proper := FileName.compose_proper ns [] told.some_ told.dotless
  rw [FileName.stem, Path.base_join, last, FileName.compose_append,
    FileName.splitBaseExtension_stem proper dot]

/-- A raw document is read under the namespace and the name that its path is composed of. -/
theorem ofDocument_join (dir ext : Text) (slash : .char '/' ∉ ext) (dot : .char '.' ∉ ext)
    (content : Except FileFailure (List UInt8)) (r : Record) :
    Record.ofDocument (Path.join dir (compose ns name (.char '.' :: ext))) content = .ok r ↔
      ∃ t p, FileText.ofContent content = .ok t ∧ Parts.ofText t = .ok p ∧
        r = { Record.ofParts p with ns, name } := by
  rw [Record.ofDocument_ok, told.stem_join dir ext slash dot,
    FileName.split_compose told.some_ told.dotless]
  simp [told.some_]

/-- Files that are composed of something else lie at other paths of the directory. -/
theorem join_ne (told' : Told ns' name') (other : (ns, name) ≠ (ns', name')) (dir : Text)
    (slash : .char '/' ∉ ext) :
    Path.join dir (compose ns name ext) ≠ Path.join dir (compose ns' name' ext) := by
  intro same
  have files := Path.join_cancel (Shelf.head?_slashless (told.slashless_compose slash))
    (Shelf.head?_slashless (told'.slashless_compose slash)) same
  rw [FileName.compose_append, FileName.compose_append ns'] at files
  obtain ⟨sameSpace, sameName⟩ :=
    FileName.compose_parts told.dotless told'.dotless (List.append_cancel_right files)
  exact other (Prod.ext sameSpace sameName)

end FileName.Told

open FileName (Told)

/-- A file name tells what it was composed of: it is split into the namespace and the name, and a raw
    document that has it, in any directory, is read under them and not otherwise. So if the
    namespaces or the names of two files differ, the paths of their records differ, and those of
    fragments, and those at which a record is looked for, with each extension. -/
theorem identity_told {ns name : Text} (told : Told ns name) :
    FileName.split (compose ns name []) = (ns, name) ∧
      (∀ ext ∈ ([".gql", ".graphql"] : List Text), ∀ dir content r,
        Record.ofDocument (Path.join dir (compose ns name ext)) content = .ok r ↔
          ∃ t p, FileText.ofContent content = .ok t ∧ Parts.ofText t = .ok p ∧
            r = { Record.ofParts p with ns, name }) ∧
      ∀ ns' name', Told ns' name' → (ns, name) ≠ (ns', name') → ∀ s : Shelf,
        (∀ r r' : Record, (r.ns, r.name) = (ns, name) → (r'.ns, r'.name) = (ns', name') →
          s.recordPath r ≠ s.recordPath r') ∧
        s.fragmentPath ns name ≠ s.fragmentPath ns' name' ∧
        ∀ ext ∈ Shelf.extensions, Path.join s.queries (compose ns name []) ++ ext ≠
          Path.join s.queries (compose ns' name' []) ++ ext := by
  refine ⟨FileName.split_compose told.some_ told.dotless, ?_, ?_⟩
  · intro ext usual dir content r
    simp only [List.mem_cons, List.not_mem_nil, or_false] at usual
    obtain rfl | rfl := usual
    · exact told.ofDocument_join dir "gql" (by decide) (by decide) content r
    · exact told.ofDocument_join dir "graphql" (by decide) (by decide) content r
  · intro ns' name' told' other s
    refine ⟨?_, told.join_ne told' other s.fragments nofun, ?_⟩
    · rintro r r' ⟨⟩ ⟨⟩
      exact told.join_ne told' other s.queries (by decide)
    · intro ext tried
      obtain ⟨e, rfl, -, slash⟩ := Shelf.extension_cases tried
      have closed : .char '/' ∉ CodePoint.char '.' :: e := by simp [slash]
      rw [Shelf.tried_path told.below told.slashless closed,
        Shelf.tried_path told'.below told'.slashless closed]
      exact told.join_ne told' other s.queries closed

/-- A namespace begins with dots and ends like a file name; another one is its beginning. -/
theorem identity_told_of_dots :
    FileName.split "..a.gql.A" = (Text.ofString "..a.gql", Text.ofString "A") ∧
      Record.ofDocument "/srv/queries/..a.gql.A.gql" (.ok ((Utf8.encode? "query Q { q }").getD [])) =
        .ok { query := "query Q { q }", ns := "..a.gql", name := "A" } ∧
      (Shelf.ofPath "/srv").fragmentPath "..a.gql" "A" ≠
        (Shelf.ofPath "/srv").fragmentPath "..a" "gql" := by
  have told : Told "..a.gql" "A" := ⟨by decide, by decide, by decide, by decide⟩
  have told' : Told "..a" "gql" := ⟨by decide, by decide, by decide, by decide⟩
  obtain ⟨split, documents, apart⟩ := identity_told told
  have text : FileText.ofContent (.ok ((Utf8.encode? "query Q { q }").getD [])) =
      .ok "query Q { q }" := except_ok (by decide +kernel)
  have cut : Parts.ofText "query Q { q }" = .ok { query := "query Q { q }" } :=
    except_ok (by decide +kernel)
  refine ⟨split, ?_, (apart _ _ told' (by decide) _).2.1⟩
  exact (documents ".gql" (by decide) "/srv/queries" _ _).mpr ⟨_, _, text, cut, rfl⟩

end ApprovedOps
