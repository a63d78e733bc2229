import ApprovedOps.Proofs.GraphQL.Rereading.Operations

/-! # Type systems that are read again

Types come in families: those with fields and interfaces, those with members of one kind between
braces, and those without braces. Each family is read again for one reason.
-/

namespace ApprovedOps

namespace GraphQL

open Reader (mark)

/-! ## Members of types -/

theorem yields_operationType : Yields Reader.operationType fun t =>
    Rereads Reader.operationType (typeWords t) t (Avoids []) := by
  refine yields_bind yields_operationKind fun kind _ => yields_mark fun _ =>
    yields_bind yields_name fun n name => yields_pure ⟨?_, ?_⟩
  · simp [typeWords, operationKind_words, name]
  · exact reads_next reads_operationKind (reads_mark fun _ =>
      reads_anywhere (reads_map reads_name (kind, ·)))

theorem yields_fieldDefinition : Yields Reader.fieldDefinition fun f =>
    Rereads Reader.fieldDefinition f.words f (Avoids ['!', '@', '(']) := by
  refine yields_bind yields_description fun desc described => yields_bind yields_name fun n name =>
    yields_bind yields_inputValues fun args defined => yields_mark fun _ =>
      yields_bind yields_type fun t type =>
        yields_bind (yields_directives true) fun ds directives => yields_pure ⟨?_, ?_⟩
  · simp [FieldDefinition.words, described.sound, name, defined.sound, type.sound, directives.sound]
  · refine reads_bind described.reads (reads_named (reads_bind defined.reads (reads_mark fun _ => ?_)
      fun _ _ => .mark (by decide))) fun _ _ => noString_name
    have ends (rest : List Word) (next : Avoids ['!', '@', '('] rest) : EndsDirectives rest :=
      next.mono (by decide)
    exact reads_bind type.reads
      (reads_map (reads_mono directives.reads ends) (FieldDefinition.mk desc n args t))
      fun rest next => avoids_directives (by decide) (next.mono (by decide))

theorem yields_enumValue : Yields Reader.enumValue fun v =>
    Rereads Reader.enumValue v.words v EndsDirectives := by
  refine yields_bind yields_description fun desc described =>
    yields_nameUnless (fun n => Reader.isReserved n = true) (fun t => yields_fail t _)
      fun n name good => yields_bind (yields_directives true) fun ds directives =>
        yields_pure ⟨?_, ?_⟩
  · simp [EnumValue.words, described.sound, name, directives.sound]
  · refine reads_bind described.reads (reads_current fun t same => ?_) fun _ _ => noString_name
    rw [if_neg ((Prod.mk.inj same).2 ▸ good)]
    exact reads_named (reads_map directives.reads (EnumValue.mk desc n))

theorem member_startsOutside {marks : List Char} :
    (∀ f : FieldDefinition, StartsOutside marks f.words) ∧
    (∀ v : EnumValue, StartsOutside marks v.words) ∧ (∀ t, StartsOutside marks (typeWords t)) :=
  ⟨fun f => description_startsOutside startsOutside_name f.description,
    fun v => description_startsOutside startsOutside_name v.description,
    fun _ => startsOutside_name⟩

/-! ## Types -/

/-- What must not come after a type. -/
structure TypeBody.Ends (body : TypeBody) (rest : List Word) : Prop where
  marks : Avoids ['@', '(', '&', '=', '|'] rest
  word : rest.head? ≠ some (.name "implements")
  braces : body.isOpen = true → Avoids ['\x7b'] rest

@[simp]
theorem sound_delimited {delimiter : Char} {ns : List Text} :
    Sound (delimitedWords delimiter ns) ↔ ∀ n ∈ ns, n.isName = true := by
  cases ns <;> simp [delimitedWords]

theorem yields_interfaces : Yields Reader.interfaces fun ns =>
    Rereads Reader.interfaces (listWords (.name "implements") '&' ns) ns fun rest =>
      Avoids ['&'] rest ∧ rest.head? ≠ some (.name "implements") := by
  refine yields_bind (yields_takesWord _) fun _ _ => yields_if ?_ ?_
  · refine yields_mono (yields_delimited yields_name _) fun ns listed => ?_
    obtain ⟨some_, names⟩ := listed
    rw [listWords, if_neg some_]
    refine ⟨sound_cons.mpr ⟨name_sound.mpr (by decide), sound_delimited.mpr names⟩, ?_⟩
    have all := @reads_delimited '&' Reader.name ns some_ fun n _ => reads_name
    exact reads_takesWord (reads_mono all fun _ next => next.1)
  · exact yields_pure ⟨sound_nil, reads_skipsWord (reads_pure _) fun _ next => next.2⟩

/-- What of a type or a schema comes after its name: directives and, in braces, its members. -/
theorem yields_members {α β : Type} {item : Reader α} {words : α → List Word} {marks : List Char}
    (items : Yields item fun x => Rereads item (words x) x (Avoids marks))
    (closes : '\x7d' ∉ marks) (begun : ∀ x, StartsOutside ('\x7d' :: marks) (words x))
    (make : List Directive → List α → β) :
    Yields (do
        let ds ← Reader.directives true
        return make ds (← Reader.optionalMany '\x7b' '\x7d' item)) fun y => ∃ ds xs, y = make ds xs ∧
      Rereads (do
          let ds ← Reader.directives true
          return make ds (← Reader.optionalMany '\x7b' '\x7d' item))
        (directiveWords ds ++ optionally '\x7b' '\x7d' (xs.flatMap words)) y fun rest =>
          EndsDirectives rest ∧ (xs = [] → Avoids ['\x7b'] rest) := by
  refine yields_bind (yields_directives true) fun ds directives =>
    yields_bind (yields_bracketed items closes begun) fun xs members =>
      yields_pure ⟨ds, xs, rfl, ?_, ?_⟩
  · simp [directives.sound, members.sound]
  · refine reads_bind directives.reads
      (reads_map (reads_mono members.reads fun _ next => next.2) (make ds)) fun rest next => ?_
    rw [optionally]
    split
    next => exact next.1
    next => exact .mark (by decide)

theorem avoids_members {marks : List Char} {ds : List Directive} {ws rest : List Word}
    (directive : '@' ∉ marks) (brace : '\x7b' ∉ marks) (next : Avoids marks rest) :
    Avoids marks (directiveWords ds ++ optionally '\x7b' '\x7d' ws ++ rest) := by
  rw [List.append_assoc]
  exact avoids_directives directive (avoids_optionally brace next)

theorem head_mark {c : Char} {n : Text} {ws : List Word} :
    (.mark c :: ws).head? ≠ some (.name n) := by
  intro same
  cases same

theorem head_members {n : Text} {ds : List Directive} {ws rest : List Word}
    (next : rest.head? ≠ some (.name n)) :
    (directiveWords ds ++ optionally '\x7b' '\x7d' ws ++ rest).head? ≠ some (.name n) := by
  cases ds with
  | cons => exact head_mark
  | nil =>
      rw [directiveWords, List.flatMap_nil, List.nil_append, optionally]
      split
      next => exact next
      next => exact head_mark

/-- The word that introduces a type. -/
def TypeBody.kind : TypeBody → Reader.TypeWord
  | .scalar => .scalar
  | .object _ _ => .object
  | .interface _ _ => .interface
  | .union _ => .union
  | .enum _ => .enum
  | .input _ => .input

theorem typeWord_word (body : TypeBody) :
    Reader.typeWord? body.word = some body.kind ∧ Text.isName body.word = true := by
  cases body <;> simp only [TypeBody.word, TypeBody.kind] <;> decide

/-- A type, from what comes after its introducing word. -/
abbrev NamedType := Text × List Directive × TypeBody

/-- Is this a type of the kind, and is it read again from what comes after its name? -/
def RestAgain (kind : Reader.TypeWord) (n : Text) (rest : Reader NamedType) (x : NamedType) : Prop :=
  x.1 = n ∧ x.2.2.kind = kind ∧ Rereads rest (x.2.2.words x.2.1) x x.2.2.Ends

/-- A type that has interfaces and fields. -/
theorem yields_fields {kind : Reader.TypeWord} (n : Text)
    {make : List Text → List FieldDefinition → TypeBody}
    (kinds : ∀ is fs, (make is fs).kind = kind)
    (words : ∀ is fs ds, (make is fs).words ds = listWords (.name "implements") '&' is ++
      (directiveWords ds ++ optionally '\x7b' '\x7d' (fs.flatMap FieldDefinition.words)))
    (opens : ∀ is, (make is []).isOpen = true) :
    Yields (do
        let is ← Reader.interfaces
        let ds ← Reader.directives true
        return (n, ds, make is (← Reader.optionalMany '\x7b' '\x7d' Reader.fieldDefinition)))
      (RestAgain kind n (do
        let is ← Reader.interfaces
        let ds ← Reader.directives true
        return (n, ds, make is (← Reader.optionalMany '\x7b' '\x7d' Reader.fieldDefinition)))) := by
  refine yields_bind yields_interfaces fun is implemented => ?_
  have members := yields_members yields_fieldDefinition (by decide) member_startsOutside.1
    fun ds fs => (n, ds, make is fs)
  refine yields_mono members ?_
  rintro x ⟨ds, fs, rfl, again⟩
  refine ⟨rfl, kinds is fs, ?_⟩
  dsimp only
  rw [words]
  refine ⟨sound_append.mpr ⟨implemented.sound, again.sound⟩, ?_⟩
  refine reads_bind implemented.reads (reads_mono again.reads ?_) ?_
  · intro rest (next : TypeBody.Ends _ rest)
    refine ⟨next.marks.mono (by decide), ?_⟩
    rintro rfl
    exact next.braces (opens is)
  · intro rest next
    exact ⟨avoids_members (by decide) (by decide) (next.marks.mono (by decide)),
      head_members next.word⟩

/-- A type that has members of another kind. -/
theorem yields_body {α : Type} {kind : Reader.TypeWord} (n : Text) {item : Reader α}
    {itemWords : α → List Word} {make : List α → TypeBody} {marks : List Char}
    (items : Yields item fun x => Rereads item (itemWords x) x (Avoids marks))
    (closes : '\x7d' ∉ marks) (begun : ∀ x, StartsOutside ('\x7d' :: marks) (itemWords x))
    (kinds : ∀ xs, (make xs).kind = kind)
    (words : ∀ xs ds, (make xs).words ds =
      directiveWords ds ++ optionally '\x7b' '\x7d' (xs.flatMap itemWords))
    (opens : (make []).isOpen = true) :
    Yields (do
        let ds ← Reader.directives true
        return (n, ds, make (← Reader.optionalMany '\x7b' '\x7d' item)))
      (RestAgain kind n (do
        let ds ← Reader.directives true
        return (n, ds, make (← Reader.optionalMany '\x7b' '\x7d' item)))) := by
  refine yields_mono (yields_members items closes begun fun ds xs => (n, ds, make xs)) ?_
  rintro x ⟨ds, xs, rfl, again⟩
  refine ⟨rfl, kinds xs, ?_⟩
  dsimp only
  rw [words]
  refine ⟨again.sound, reads_mono again.reads fun rest (next : TypeBody.Ends _ rest) => ?_⟩
  refine ⟨next.marks.mono (by decide), ?_⟩
  rintro rfl
  exact next.braces opens

theorem yields_scalar (n : Text) :
    Yields (do return (n, ← Reader.directives true, TypeBody.scalar))
      (RestAgain .scalar n (do return (n, ← Reader.directives true, TypeBody.scalar))) := by
  refine yields_bind (yields_directives true) fun ds directives =>
    yields_pure ⟨rfl, rfl, directives.sound, ?_⟩
  exact reads_map (reads_mono directives.reads fun rest (next : TypeBody.Ends _ rest) =>
    next.marks.mono (by decide)) (n, ·, TypeBody.scalar)

/-- The members of a union after its name and directives. -/
def unionRest (n : Text) (ds : List Directive) : Reader NamedType := do
  if ← Reader.takes (mark '=') then
    return (n, ds, .union (← Reader.delimited '|' Reader.name))
  else
    return (n, ds, .union [])

theorem yields_union (n : Text) : Yields (Reader.directives true >>= unionRest n)
    (RestAgain .union n (Reader.directives true >>= unionRest n)) := by
  refine yields_bind (yields_directives true) fun ds directives =>
    yields_bind (yields_takes _) fun _ _ => yields_if ?_ ?_
  · refine yields_bind (yields_delimited yields_name _) fun ns listed => ?_
    obtain ⟨some_, names⟩ := listed
    refine yields_pure ⟨rfl, rfl, ?_, ?_⟩
    · simpa [TypeBody.words, listWords, some_, directives.sound] using names
    · have members : Reads (unionRest n ds) (listWords (.mark '=') '|' ns) (n, ds, .union ns)
          (TypeBody.union ns).Ends := by
        rw [listWords, if_neg some_]
        have all := reads_mono (@reads_delimited '|' Reader.name ns some_ fun n _ => reads_name)
          fun rest (next : (TypeBody.union ns).Ends rest) => next.marks.mono (by decide)
        exact reads_takes (reads_map all (n, ds, TypeBody.union ·))
      refine reads_bind directives.reads members fun rest next => ?_
      rw [listWords, if_neg some_]
      exact .mark (by decide)
  · refine yields_pure ⟨rfl, rfl, ?_, ?_⟩
    · simp [TypeBody.words, listWords, directives.sound]
    · have nothing : Reads (unionRest n ds) (listWords (.mark '=') '|' []) (n, ds, .union [])
          (TypeBody.union []).Ends :=
        reads_skips (reads_pure _) fun rest next => next.marks.mono (by decide)
      exact reads_bind directives.reads nothing fun rest next => next.marks.mono (by decide)

/-- What comes after the word that introduces a type is read again. -/
theorem yields_typeRest (kind : Reader.TypeWord) : Yields (Reader.typeRest kind) fun x =>
    x.1.isName = true ∧ x.2.2.kind = kind ∧
      Rereads (Reader.typeRest kind) (.name x.1 :: x.2.2.words x.2.1) x x.2.2.Ends := by
  have named {rest : Text → Reader NamedType} (h : ∀ n, Yields (rest n) (RestAgain kind n (rest n))) :
      Yields (Reader.name >>= rest) fun x => x.1.isName = true ∧ x.2.2.kind = kind ∧
        Rereads (Reader.name >>= rest) (.name x.1 :: x.2.2.words x.2.1) x x.2.2.Ends := by
    refine yields_bind yields_name fun n name => yields_mono (h n) ?_
    rintro ⟨_, ds, body⟩ ⟨rfl, kinds, again⟩
    exact ⟨name, kinds, sound_cons.mpr ⟨name, again.sound⟩, reads_named again.reads⟩
  cases kind with
  | scalar => exact named yields_scalar
  | object => exact named fun n => yields_fields n (fun _ _ => rfl) (fun _ _ _ => rfl) fun _ => rfl
  | interface => exact named fun n => yields_fields n (fun _ _ => rfl) (fun _ _ _ => rfl) fun _ => rfl
  | union => exact named yields_union
  | enum =>
      exact named fun n => yields_body n yields_enumValue (by decide) member_startsOutside.2.1
        (fun _ => rfl) (fun _ _ => rfl) rfl
  | input =>
      exact named fun n => yields_body n yields_inputValue (by decide) inputValue_startsOutside
        (fun _ => rfl) (fun _ _ => rfl) rfl

end GraphQL

end ApprovedOps
