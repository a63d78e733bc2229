import ApprovedOps.Project.Settings
import ApprovedOps.Proofs.Toml.Strings
import ApprovedOps.Proofs.Toml.Tables

/-! # New files of settings

A new file of settings is a header, a line with the name of the project between quotes, and remarks.
The name is not encoded. If nothing in it has to be escaped, the file is read as it is meant; if not,
then whatever is read, the name that is read is another one.
-/

namespace ApprovedOps

namespace Toml

/-! ## Line breaks -/

theorem withLineFeeds_plain {t : Text} (plain : .char '\r' ∉ t) (s : Text) :
    withLineFeeds (t ++ s) = t ++ withLineFeeds s := by
  induction t with
  | nil => rfl
  | cons p t ih =>
      obtain ⟨other, rest⟩ : .char '\r' ≠ p ∧ .char '\r' ∉ t := by simpa using plain
      rw [List.cons_append, withLineFeeds, if_neg fun same => other same.1.symm, ih rest,
        List.cons_append]

theorem withLineFeeds_append {s : Text} (noBreak : s.head? ≠ some (.char '\n')) (t : Text) :
    withLineFeeds (t ++ s) = withLineFeeds t ++ withLineFeeds s := by
  induction t with
  | nil => rfl
  | cons p t ih =>
      have next : (t ++ s).head? = some (.char '\n') ↔ t.head? = some (.char '\n') := by
        cases t <;> simp [noBreak]
      rw [List.cons_append, withLineFeeds, withLineFeeds, ih]
      simp only [next]
      split <;> rfl

theorem withLineFeeds_length (t : Text) :
    (withLineFeeds t).length ≤ t.length ∧
      ((withLineFeeds t).length = t.length → withLineFeeds t = t) := by
  induction t with
  | nil => exact ⟨Nat.le_refl 0, fun _ => rfl⟩
  | cons p t ih =>
      obtain ⟨short, equal⟩ := ih
      rw [withLineFeeds]
      split
      · rw [List.length_cons]
        exact ⟨by omega, fun same => by omega⟩
      · rw [List.length_cons, List.length_cons]
        exact ⟨by omega, fun same => by rw [equal (by omega)]⟩

/-! ## Lines -/

/-- Is a line empty or a comment? -/
def IsRemark (line : Text) : Prop :=
  line = [] ∨ line.head? = some (.char '#') ∧ ∀ p ∈ line.tail, isControl p = false

theorem refuseControls_ok {t : Text} (noControl : ∀ p ∈ t, isControl p = false) (multiline : Bool)
    (after : Text) : refuseControls multiline after t = .ok () := by
  induction t with
  | nil => rfl
  | cons p t ih =>
      obtain ⟨here, later⟩ := List.forall_mem_cons.mp noControl
      rw [refuseControls, if_neg (by simp [isIllegal, here]), ih later]

theorem skipComment_comment {body : Text} (noControl : ∀ p ∈ body, isControl p = false) (s : Text) :
    skipComment (.char '#' :: (body ++ .char '\n' :: s)) = .ok (.char '\n' :: s) := by
  have comment : ∀ p ∈ CodePoint.char '#' :: body, decide (p ≠ .char '\n') = true := by
    refine List.forall_mem_cons.mpr ⟨by decide, fun p among => decide_eq_true ?_⟩
    rintro rfl
    exact absurd (noControl _ among) (by decide)
  have split : (.char '#' :: (body ++ .char '\n' :: s)).span (· ≠ .char '\n') =
      (.char '#' :: body, .char '\n' :: s) := by
    rw [List.span_eq_takeWhile_dropWhile, ← List.cons_append,
      List.takeWhile_append_of_pos comment, List.dropWhile_append_of_pos comment]
    simp
  rw [skipComment, if_pos List.head?_cons]
  simp only [split, List.tail_cons, refuseControls_ok noControl]
  rfl

/-- Remarks say nothing. -/
theorem statements_remarks {lines : List Text} (remarks : ∀ line ∈ lines, IsRemark line)
    (bound : Nat) (b : Builder) :
    statements bound b (lines.flatMap (· ++ [.char '\n'])) = .ok b := by
  induction lines generalizing bound with
  | nil => cases bound <;> rfl
  | cons line lines ih =>
      cases bound with
      | zero => rfl
      | succ bound =>
          obtain ⟨here, later⟩ := List.forall_mem_cons.mp remarks
          rw [List.flatMap_cons, List.append_assoc, List.singleton_append]
          obtain rfl | ⟨begins, noControl⟩ := here
          · exact ih later bound
          · obtain ⟨body, rfl⟩ := List.head?_eq_some_iff.mp begins
            rw [List.tail_cons] at noControl
            have comment (s : Text) : statements (bound + 1) b (.char '#' :: body ++ s) =
                afterStatement bound b (.char '#' :: (body ++ s)) := rfl
            rw [comment, afterStatement, List.dropWhile_cons_of_neg (by decide),
              skipComment_comment noControl]
            exact ih later bound

end Toml

namespace Settings

open Toml

/-- The remarks in a new file of settings. -/
def remarks : List Text :=
  [ "# root = \".allowlist\"   # default", "# fs = \"file\"           # fsspec protocol",
    "# read_only = false", "# queue_size = 1        # pending writes before set() blocks", "",
    "# [logging]", "# level = \"INFO\"" ]

/-- What is behind the name of a project in a new file of settings. -/
def afterName : Text :=
  .char '"' :: .char '\n' :: remarks.flatMap (· ++ [.char '\n'])

theorem template_eq (n : Text) :
    template n = Text.ofString "[allowlist]\n" ++
      (Text.ofString "name = " ++ .char '"' :: (n ++ afterName)) := by
  simp [template, Text.concat, afterName, remarks, Text.ofString]

/-- What is built behind the header. -/
def begun : Builder where
  table := [(.string "allowlist", .mapping [])]
  marks := [(["allowlist"], .opened)]
  header := ["allowlist"]

/-- The place of the name. -/
def nameKey : Key :=
  ["allowlist", "name"]

/-- The entries of a file with a name and nothing else. -/
def onlyName (n : Text) : Entries :=
  [(.string "allowlist", .mapping [(.string "name", .string n)])]

theorem statements_header (bound : Nat) (s : Text) :
    statements (bound + 1) {} (Text.ofString "[allowlist]\n" ++ s) = statements bound begun s := by
  rfl

theorem statements_name (bound : Nat) (s : Text) :
    statements (bound + 1) begun (Text.ofString "name = " ++ .char '"' :: s) =
      string '"' (.char '"' :: s) >>= fun (v, s) =>
        built (begun.add ["name"] v) s >>= fun b => afterStatement bound b s := by
  have steps : statements (bound + 1) begun (Text.ofString "name = " ++ .char '"' :: s) =
      (string '"' (.char '"' :: s) >>= fun p => pure ([Text.ofString "name"], p)) >>=
        (fun p => built (begun.add p.1 p.2.1) p.2.2 >>= fun b => pure (b, p.2.2)) >>=
          fun p => afterStatement bound p.1 p.2 := rfl
  rw [steps]
  simp only [bind_assoc, pure_bind]

/-- A new file is read as a string, and then what is behind it. -/
theorem statements_template (n : Text) (bound : Nat) :
    statements (bound + 2) {} (template n) =
      string '"' (.char '"' :: (n ++ afterName)) >>= fun (v, s) =>
        built (begun.add ["name"] v) s >>= fun b => afterStatement bound b s := by
  rw [template_eq, statements_header, statements_name]

theorem begun_add (t : Text) : ∃ b, begun.add ["name"] (.string t) = .ok b ∧ b.table = onlyName t :=
  ⟨_, rfl, rfl⟩

/-- Nothing of the two lines is left out for want of steps. -/
theorem template_bound (n : Text) : ∃ bound, (template n).length + 1 = bound + 2 :=
  ⟨_, by rw [template_eq, List.length_append, Nat.add_comm, Nat.add_assoc]; rfl⟩

theorem remarks_isRemark : ∀ line ∈ remarks, IsRemark line := by
  unfold IsRemark
  decide +kernel

/-- A name in which nothing has to be escaped is read as it is. -/
theorem read_template {n : Text} (ordinary : ∀ p ∈ n, isOrdinary p = true) :
    readLines (template n) = .ok (onlyName n) := by
  obtain ⟨bound, size⟩ := template_bound n
  obtain ⟨b, added, table⟩ := begun_add n
  have read : statements (bound + 2) {} (template n) = .ok b := by
    rw [statements_template, afterName, string_ordinary ordinary (by simp)]
    simp only [bind, Except.bind, added, built]
    exact statements_remarks remarks_isRemark bound b
  rw [readLines, size, read, ← table]
  rfl

/-- Whatever is read, it has a name that is no longer than the one that was given, and as long only if
    it is the same one, in which nothing has to be escaped. -/
theorem template_name {n : Text} {es : Entries} (h : readLines (template n) = .ok es) :
    ∃ t, es.At (.string t) nameKey ∧ t.length ≤ n.length ∧
      (t.length = n.length → t = n ∧ ∀ p ∈ n, isOrdinary p = true) := by
  obtain ⟨bound, size⟩ := template_bound n
  obtain ⟨b, run, rfl⟩ : ∃ b, statements (bound + 2) {} (template n) = .ok b ∧ b.table = es := by
    rw [readLines, size] at h
    obtain ⟨b, run, made⟩ := except_bind_ok h
    exact ⟨b, run, Except.ok.inj made⟩
  rw [statements_template] at run
  obtain ⟨⟨v, s⟩, read, more⟩ := except_bind_ok run
  obtain ⟨b₁, added, later⟩ := except_bind_ok more
  obtain ⟨t, rfl, short, equal⟩ := string_ok (by decide +kernel) ⟨_, rfl⟩ read
  obtain ⟨b₂, added₂, table⟩ := begun_add t
  obtain rfl : b₂ = b₁ := Except.ok.inj (added₂.symm.trans (built_ok added))
  refine ⟨t, afterStatement_keeps rfl ?_ later, short, equal⟩
  rw [table]
  exact .inside rfl (.here rfl)

end Settings

end ApprovedOps
