import ApprovedOps.Proofs.GraphQL.Rereading.Definitions
import Mathlib.Data.List.Chain

/-! # Documents that are read again

A definition is told from the others by its first words. What a text is read as is read again from
its words, unless braces that are a definition come right after one that they would belong to.
-/

namespace ApprovedOps

namespace GraphQL

open Reader (mark)

/-! ## Definitions by their words -/

/-- What must not come after a definition. -/
structure Definition.Ends (d : Definition) (rest : List Word) : Prop where
  marks : Avoids ['@', '(', '&', '=', '|'] rest
  word : rest.head? ≠ some (.name "implements")
  braces : d.isOpen = true → Avoids ['\x7b'] rest

/-- Does the definition list what it must? -/
def Definition.IsWhole : Definition → Prop
  | .schema _ _ types => types ≠ []
  | .directive _ _ _ _ places => places ≠ []
  | _ => True

/-- Is this a definition with a word of its own, perhaps after a description, that is read again? -/
structure Introduced (word : Text) (r : Reader Definition) (d : Definition) : Prop where
  words : ∃ desc us, d.words = descriptionWords desc ++ .name word :: us
  again : Rereads r d.words d d.Ends
  whole : d.IsWhole

theorem yields_fragment : Yields Reader.fragment (Introduced "fragment" Reader.fragment) := by
  refine yields_bind yields_description fun desc described =>
    yields_bind (yields_expectWord _) fun _ _ => yields_bind yields_fragmentName fun n named =>
      yields_bind (yields_expectWord _) fun _ _ => yields_bind yields_name fun type typed =>
        yields_bind (yields_directives false) fun ds directives =>
          yields_bind yields_selections fun ss again => ?_
  refine yields_pure ⟨⟨desc, _, rfl⟩, ⟨?_, ?_⟩, trivial⟩
  · simp [Definition.words, described.sound, named.1, typed, directives.sound, again.sound]
    decide
  · refine reads_bind described.reads (reads_expectWord (reads_next (reads_fragmentName named.2)
      (reads_expectWord (reads_named ?_)))) fun _ _ => noString_name
    have block := reads_map again.reads (Definition.fragment desc n type ds)
    exact reads_bind directives.reads (reads_anywhere block) fun _ _ => .mark (by decide)

theorem yields_location : Yields Reader.location fun n =>
    n.isName = true ∧ Reads Reader.location [.name n] n Anything := by
  refine yields_current fun t _ => yields_bind yields_name fun n name => ?_
  by_cases known : (Reader.locations.any fun l => Text.ofString l = n) = true
  · rw [if_pos known]
    refine yields_pure ⟨name, reads_current fun t _ => reads_return reads_name ?_⟩
    rw [if_pos known]
  · rw [if_neg known]
    exact yields_unexpected t

theorem yields_directiveDefinition :
    Yields Reader.directiveDefinition (Introduced "directive" Reader.directiveDefinition) := by
  refine yields_bind yields_description fun desc described =>
    yields_bind (yields_expectWord _) fun _ _ => yields_mark fun _ =>
      yields_bind yields_name fun n name => yields_bind yields_inputValues fun args defined =>
        yields_bind (yields_takesWord _) fun repeatable _ =>
          yields_bind (yields_expectWord _) fun _ _ =>
            yields_bind (yields_delimited yields_location _) fun ns listed => ?_
  obtain ⟨some_, places⟩ := listed
  refine yields_pure ⟨⟨desc, _, rfl⟩, ⟨?_, ?_⟩, some_⟩
  · have names : Sound (delimitedWords '|' ns) := sound_delimited.mpr fun n among => (places n among).1
    cases repeatable <;>
      simp [Definition.words, described.sound, name, defined.sound, names] <;> decide
  · have on_ : Reads (do
        Reader.expectWord "on"
        return Definition.directive desc n args repeatable (← Reader.delimited '|' Reader.location))
        (.name "on" :: delimitedWords '|' ns) (.directive desc n args repeatable ns)
        (Definition.directive desc n args repeatable ns).Ends := by
      have all := @reads_delimited '|' Reader.location ns some_ fun n among => (places n among).2
      have ends (rest : List Word)
          (next : (Definition.directive desc n args repeatable ns).Ends rest) : Avoids ['|'] rest :=
        next.marks.mono (by decide)
      exact reads_expectWord (reads_map (reads_mono all ends)
        (Definition.directive desc n args repeatable))
    refine reads_bind described.reads (reads_expectWord (reads_mark fun _ => reads_named
      (reads_bind defined.reads ?_ fun _ _ => ?_))) fun _ _ => noString_name
    · cases repeatable with
      | true => exact reads_takesWord on_
      | false => exact reads_skipsWord on_ fun _ _ => by simp [Word.name]; decide
    · cases repeatable <;> exact .name

theorem yields_schema : Yields Reader.schema (Introduced "schema" Reader.schema) := by
  refine yields_bind yields_description fun desc described =>
    yields_bind (yields_expectWord _) fun _ _ =>
      yields_bind (yields_directives true) fun ds directives =>
        yields_bind (yields_many yields_operationType _ _) fun types listed => ?_
  obtain ⟨some_, members⟩ := listed
  refine yields_pure ⟨⟨desc, _, rfl⟩, ⟨?_, ?_⟩, some_⟩
  · have listed : Sound (types.flatMap typeWords) :=
      sound_flatMap.mpr fun t among => (members t among).sound
    simp [Definition.words, described.sound, directives.sound, listed]
    decide
  · have all : Reads (Reader.many '\x7b' '\x7d' Reader.operationType)
        (enclosed '\x7b' '\x7d' (types.flatMap typeWords)) types Anything :=
      reads_many some_ List.not_mem_nil (fun t among => (members t among).reads) fun t _ =>
        member_startsOutside.2.2 t
    have block := reads_map all (Definition.schema desc ds)
    exact reads_bind described.reads (reads_expectWord (reads_bind directives.reads
      (reads_anywhere block) fun _ _ => .mark (by decide))) fun _ _ => noString_name

/-! ## Extensions -/

theorem word_other (body : TypeBody) : Text.ofString body.word ≠ Text.ofString "schema" ∧
    Text.ofString body.word ≠ Text.ofString "directive" ∧
    Text.ofString body.word ≠ Text.ofString "implements" := by
  cases body <;> simp only [TypeBody.word] <;> decide

/-- Is this an extension that is read again? -/
def Extends (d : Definition) : Prop :=
  (∃ us, d.words = .name "extend" :: us) ∧ Rereads Reader.extension d.words d d.Ends ∧ d.IsWhole

theorem yields_extension : Yields Reader.extension Extends := by
  refine yields_bind yields_lookahead fun t _ => ?_
  by_cases schema : Reader.isWord "schema" t = true
  · rw [if_pos schema]
    refine yields_advanced (yields_advanced (yields_bind (yields_directives true) fun ds directives =>
      yields_bind (yields_bracketed yields_operationType List.not_mem_nil member_startsOutside.2.2)
        fun types members => ?_))
    by_cases empty : (ds.isEmpty && types.isEmpty) = true
    · rw [if_pos empty]
      exact yields_current fun t _ => yields_unexpected t
    · rw [if_neg empty]
      refine yields_pure ⟨⟨_, rfl⟩, ⟨?_, ?_⟩, trivial⟩
      · simp [Definition.words, directives.sound, members.sound]
        decide
      · refine reads_lookahead fun u same => ?_
        rw [if_pos (isWord_word.mpr same)]
        refine reads_advanced (reads_advanced (reads_bind directives.reads (reads_return
          (reads_mono members.reads fun rest (next : Definition.Ends _ rest) none => ?_) ?_) ?_))
        · exact next.braces (List.isEmpty_iff.mpr none)
        · rw [if_neg empty]
        · intro rest next
          exact avoids_optionally (by decide) (next.marks.mono (by decide))
  · rw [if_neg schema]
    cases (if t.kind = .name then Reader.typeWord? t.value else none) with
    | none => exact yields_unexpected t
    | some kind =>
        refine yields_advanced (yields_advanced (yields_bind (yields_typeRest kind) ?_))
        rintro ⟨n, ds, body⟩ ⟨-, rfl, again⟩
        by_cases empty : (ds.isEmpty && Reader.isEmptyBody body) = true
        · simp only [empty, if_true]
          exact yields_current fun t _ => yields_unexpected t
        · simp only [empty, Bool.false_eq_true, if_false]
          refine yields_pure ⟨⟨_, rfl⟩, ⟨?_, ?_⟩, trivial⟩
          · simp only [Definition.words, sound_cons, name_sound, typeWord_word, true_and]
            exact ⟨by decide, sound_cons.mp again.sound⟩
          · refine reads_lookahead fun u same => ?_
            obtain ⟨kind, value⟩ := Prod.mk.inj same
            have other : ¬Reader.isWord "schema" u = true := fun schema =>
              (word_other body).1 (value.symm.trans (Prod.mk.inj (isWord_word.mp schema)).2)
            rw [if_neg other, if_pos kind, value, (typeWord_word body).1]
            refine reads_advanced (reads_advanced (reads_return
              (reads_mono again.reads fun rest (next : Definition.Ends _ rest) => ?_) ?_))
            · exact ⟨next.marks, next.word, next.braces⟩
            · simp only [empty, Bool.false_eq_true, if_false]

/-! ## Definitions -/

/-- A definition that a word introduces is read as such, with or without a description. -/
theorem reads_definition (desc : Option Description) {n : Text} {us : List Word} {d : Definition}
    {Q : List Word → Prop} (h : ∀ t, t.word = .name n →
      Reads (Reader.described t desc.isSome) (descriptionWords desc ++ .name n :: us) d Q) :
    Reads Reader.definition (descriptionWords desc ++ .name n :: us) d Q := by
  cases desc with
  | none =>
      refine reads_current fun t same => ?_
      have kind : t.kind = .name := (Prod.mk.inj same).1
      rw [if_neg (by simp [kind, mark]), if_neg (by simp [Reader.isString, kind])]
      exact h t same
  | some desc =>
      refine reads_current fun t same => ?_
      have kind : t.kind = if desc.block then .blockString else .string := (Prod.mk.inj same).1
      have noBrace : t.kind ≠ mark '\x7b' := by cases h : desc.block <;> simp [kind, h, mark]
      have isString : Reader.isString t = true := by
        cases h : desc.block <;> simp [Reader.isString, kind, h]
      rw [if_neg noBrace, if_pos isString]
      refine reads_lookahead fun u same => ?_
      have kind : u.kind = .name := (Prod.mk.inj same).1
      rw [if_neg (by simp [kind, mark])]
      exact h u same

theorem described_schema {t : Token} {b : Bool} (same : t.word = .name "schema") :
    Reader.described t b = Reader.schema := by
  obtain ⟨kind, start, value⟩ := t
  cases same
  rfl

theorem described_directive {t : Token} {b : Bool} (same : t.word = .name "directive") :
    Reader.described t b = Reader.directiveDefinition := by
  obtain ⟨kind, start, value⟩ := t
  cases same
  rfl

theorem described_type {t : Token} {b : Bool} {body : TypeBody} (same : t.word = .name body.word) :
    Reader.described t b = (do
      let desc ← Reader.description
      Reader.advance
      let (n, ds, body) ← Reader.typeRest body.kind
      return Definition.type desc n ds body) := by
  obtain ⟨kind, value⟩ := Prod.mk.inj same
  have other {word : String} (differs : Text.ofString body.word ≠ Text.ofString word) :
      ¬Reader.isWord word t = true := fun here =>
    differs (value.symm.trans (Prod.mk.inj (isWord_word.mp here)).2)
  rw [Reader.described, if_neg (not_not.mpr kind), if_neg (other (word_other body).1),
    if_neg (other (word_other body).2.1), value, (typeWord_word body).1]

theorem described_operation {t : Token} {b : Bool} {kind : OperationKind}
    (same : t.word = .name (Layout.operationKind kind)) :
    Reader.described t b = (do return Definition.operation (← Reader.operation)) := by
  obtain ⟨_, start, value⟩ := t
  cases same
  cases kind <;> rfl

theorem described_fragment {t : Token} {b : Bool} (same : t.word = .name "fragment") :
    Reader.described t b = Reader.fragment := by
  obtain ⟨kind, start, value⟩ := t
  cases same
  rfl

theorem described_extension {t : Token} (same : t.word = .name "extend") :
    Reader.described t false = Reader.extension := by
  obtain ⟨kind, start, value⟩ := t
  cases same
  rfl

/-- Is the definition read again from its words, and does it list what it must? -/
def Definition.Again (d : Definition) : Prop :=
  Rereads Reader.definition d.words d d.Ends ∧ d.IsWhole

theorem introduced_again {word : Text} {r : Reader Definition} {d : Definition}
    (described : ∀ {t : Token} {b : Bool}, t.word = .name word → Reader.described t b = r)
    (h : Introduced word r d) : d.Again := by
  obtain ⟨desc, us, words⟩ := h.words
  refine ⟨⟨h.again.sound, ?_⟩, h.whole⟩
  have reads := h.again.reads
  rw [words] at reads ⊢
  refine reads_definition _ fun t same => ?_
  rw [described same]
  exact reads

theorem operation_words {o : Operation} (other : ¬o.isBare = true) : ∃ us,
    o.words = descriptionWords o.description ++ .name (Layout.operationKind o.kind) :: us := by
  rw [Operation.words, if_neg other]
  exact ⟨_, rfl⟩

theorem operation_definition {o : Operation} (again : Rereads Reader.operation o.words o Anything) :
    (Definition.operation o).Again := by
  refine ⟨⟨again.sound, ?_⟩, trivial⟩
  rw [Definition.words]
  have reads := again.reads
  by_cases bare : o.isBare = true
  · rw [Operation.words, if_pos bare] at reads ⊢
    refine reads_current fun t same => ?_
    rw [if_pos (Prod.mk.inj same).1]
    exact reads_anywhere (reads_map reads Definition.operation)
  · obtain ⟨us, words⟩ := operation_words bare
    rw [words] at reads ⊢
    refine reads_definition _ fun t same => ?_
    rw [described_operation same]
    exact reads_anywhere (reads_map reads Definition.operation)

theorem type_definition {desc : Option Description} {n : Text} {ds : List Directive} {body : TypeBody}
    (described : Rereads Reader.description (descriptionWords desc) desc NoString)
    (again : Rereads (Reader.typeRest body.kind) (.name n :: body.words ds) (n, ds, body) body.Ends) :
    (Definition.type desc n ds body).Again := by
  refine ⟨⟨?_, ?_⟩, trivial⟩
  · simp only [Definition.words, sound_append, sound_cons, name_sound, typeWord_word, true_and]
    exact ⟨described.sound, sound_cons.mp again.sound⟩
  · refine reads_definition _ fun t same => ?_
    rw [described_type same]
    have rest := reads_mono again.reads
      fun rest (next : (Definition.type desc n ds body).Ends rest) =>
        ⟨next.marks, next.word, next.braces⟩
    exact reads_bind described.reads (reads_advanced (reads_return rest rfl)) fun _ _ => noString_name

theorem extension_definition {d : Definition} (h : Extends d) : d.Again := by
  obtain ⟨⟨us, words⟩, again, whole⟩ := h
  refine ⟨⟨again.sound, ?_⟩, whole⟩
  have reads := again.reads
  rw [words] at reads ⊢
  refine reads_definition none fun t same => ?_
  change Reads (Reader.described t false) _ _ _
  rw [described_extension same]
  exact reads

theorem yields_described (t : Token) (b : Bool) : Yields (Reader.described t b) Definition.Again := by
  rw [Reader.described]
  refine yields_if (yields_unexpected t) (yields_if ?_ (yields_if ?_ ?_))
  · exact yields_mono yields_schema fun d => introduced_again described_schema
  · exact yields_mono yields_directiveDefinition fun d => introduced_again described_directive
  · cases Reader.typeWord? t.value with
    | some kind =>
        refine yields_bind yields_description fun desc described =>
          yields_advanced (yields_bind (yields_typeRest kind) ?_)
        rintro ⟨n, ds, body⟩ ⟨-, rfl, again⟩
        exact yields_pure (type_definition described again)
    | none =>
        refine yields_if ?_ (yields_if ?_ (yields_if ?_ (yields_if ?_ (yields_unexpected t))))
        · exact yields_bind yields_operation fun o again => yields_pure (operation_definition again)
        · exact yields_mono yields_fragment fun d => introduced_again described_fragment
        · exact yields_current fun t _ => yields_fail t _
        · exact yields_mono yields_extension fun d => extension_definition

theorem yields_definition : Yields Reader.definition Definition.Again := by
  refine yields_current fun t _ => yields_if ?_ (yields_if ?_ (yields_described t false))
  · exact yields_bind yields_operation fun o again => yields_pure (operation_definition again)
  · exact yields_bind yields_lookahead fun u _ => yields_if (yields_fail t _) (yields_described u true)

/-! ## Documents -/

theorem yields_definitions (n : Nat) : Yields (Reader.definitions n) fun ds => ∀ d ∈ ds, d.Again := by
  induction n with
  | zero => exact yields_current fun t _ => yields_unexpected t
  | succ n ih =>
      refine yields_bind (yields_isAt _) fun _ _ =>
        yields_if (yields_pure (List.forall_mem_nil _)) ?_
      exact yields_bind yields_definition fun d here => yields_bind ih fun ds later =>
        yields_pure (List.forall_mem_cons.mpr ⟨here, later⟩)

theorem yields_document : Yields Reader.document fun ds => ds ≠ [] ∧ ∀ d ∈ ds, d.Again :=
  yields_bind yields_definition fun d here => yields_bind yields_bound fun n _ =>
    yields_bind (yields_definitions n) fun ds later =>
      yields_pure ⟨List.cons_ne_nil d ds, List.forall_mem_cons.mpr ⟨here, later⟩⟩

/-- Does no definition that is written as braces come right after one that these would belong to? -/
def Document.Unambiguous (ds : Document) : Prop :=
  List.IsChain (fun d next => d.isOpen = true → next.isBare = false) ds

/-- Can a definition begin with the word? With a brace if it is nothing but braces. -/
structure Opening (bare : Bool) (w : Word) : Prop where
  inside : w.1 ≠ .eof
  marks : ∀ c, c ≠ '\x7b' → w.1 ≠ mark c
  word : w ≠ .name "implements"
  brace : bare = false → w.1 ≠ mark '\x7b'

/-- Nothing but a name or a string begins a definition that is not braces alone. -/
theorem opening_other {w : Word} {bare : Bool} (inside : w.1 ≠ .eof) (other : ∀ c, w.1 ≠ mark c)
    (word : w ≠ .name "implements") : Opening bare w :=
  ⟨inside, fun c _ => other c, word, fun _ => other '\x7b'⟩

theorem opening_described {n : Text} {us : List Word} (desc : Option Description)
    (other : n ≠ Text.ofString "implements") :
    ∃ w vs, descriptionWords desc ++ .name n :: us = w :: vs ∧ Opening false w := by
  cases desc with
  | none =>
      refine ⟨_, _, rfl, opening_other ?_ (fun c => ?_) fun same => other (Prod.mk.inj same).2⟩
      · simp [Word.name]
      · simp [Word.name, mark]
  | some desc =>
      refine ⟨_, _, rfl, opening_other ?_ (fun c => ?_) ?_⟩
      all_goals cases desc.block <;> simp [Word.string, Word.name, mark]

theorem opening_definition (d : Definition) : ∃ w us, d.words = w :: us ∧ Opening d.isBare w := by
  cases d with
  | operation o =>
      rw [Definition.words, Definition.isBare]
      by_cases bare : o.isBare = true
      · rw [Operation.words, if_pos bare, bare]
        refine ⟨_, _, rfl, ?_, fun c other same => other ?_, ?_, fun same => ?_⟩
        · simp [Word.mark, mark]
        · cases same
          rfl
        · simp [Word.mark, Word.name, mark]
        · cases same
      · obtain ⟨us, words⟩ := operation_words bare
        rw [words, Bool.eq_false_iff.mpr bare]
        refine opening_described o.description ?_
        cases o.kind <;> simp only [Layout.operationKind] <;> decide
  | fragment desc | schema desc | directive desc => exact opening_described desc (by decide)
  | type desc n ds body => exact opening_described desc (word_other body).2.2
  | extendSchema | extendType => exact opening_described none (by decide)

theorem ends_next {d next : Definition} (apart : d.isOpen = true → next.isBare = false)
    (rest : List Word) : d.Ends (next.words ++ rest) := by
  obtain ⟨w, us, words, opening⟩ := opening_definition next
  rw [words]
  refine ⟨.cons fun c among => opening.marks c ?_, ?_, fun isOpen => .cons fun c among => ?_⟩
  · rintro rfl
    exact absurd among (by decide)
  · exact fun same => opening.word (Option.some.inj same)
  · rw [List.mem_singleton.mp among]
    exact opening.brace (apart isOpen)

theorem ends_eof (d : Definition) : d.Ends [.eof] := by
  have other {marks : List Char} : Avoids marks [.eof] := .cons fun c _ => by simp [Word.eof, mark]
  exact ⟨other, by simp [Word.eof, Word.name], fun _ => other⟩

/-- Nothing is left but the end of the text. -/
abbrev AtEnd (rest : List Word) : Prop :=
  rest = [.eof]

theorem reads_atEnd {α : Type} {f : Bool → Reader α} {x : α} (h : Reads (f true) [] x AtEnd) :
    Reads (Reader.isAt .eof >>= f) [] x AtEnd := by
  rintro s rest shows_ more rfl
  have here : s.current.kind = .eof := (Prod.mk.inj shows_.current).1
  have run : (Reader.isAt .eof >>= f) s = f (s.current.kind = .eof) s := rfl
  rw [run, decide_eq_true here]
  exact h shows_ more rfl

/-- What comes after a definition of a document is the next one or the end. -/
theorem ends_definition {d : Definition} {ds : Document} (apart : Document.Unambiguous (d :: ds)) :
    ∀ rest, AtEnd rest → d.Ends (ds.flatMap Definition.words ++ rest) := by
  rintro rest rfl
  cases ds with
  | nil => exact ends_eof d
  | cons next ds =>
      rw [List.flatMap_cons, List.append_assoc]
      exact ends_next (List.isChain_cons_cons.mp apart).1 _

theorem reads_definitions {ds : Document} {n : Nat} (long : ds.length < n)
    (again : ∀ d ∈ ds, d.Again) (apart : Document.Unambiguous ds) :
    Reads (Reader.definitions n) (ds.flatMap Definition.words) ds AtEnd := by
  induction ds generalizing n with
  | nil =>
      obtain ⟨n, rfl⟩ := Nat.exists_eq_succ_of_ne_zero (Nat.ne_of_gt long)
      exact reads_atEnd (reads_pure [])
  | cons d ds ih =>
      obtain ⟨n, rfl⟩ := Nat.exists_eq_succ_of_ne_zero (Nat.ne_of_gt (Nat.zero_lt_of_lt long))
      obtain ⟨here, later⟩ := List.forall_mem_cons.mp again
      have rest := ih (Nat.lt_of_succ_lt_succ long) later apart.tail
      rw [List.flatMap_cons]
      refine reads_notAt
        (reads_bind here.1.reads (reads_map rest (d :: ·)) (ends_definition apart)) ?_
      obtain ⟨w, us, words, opening⟩ := opening_definition d
      rintro rest - w' first
      rw [words] at first
      cases first
      exact opening.inside

/-- A document is read again from its words. -/
theorem reads_document {ds : Document} (some_ : ds ≠ []) (again : ∀ d ∈ ds, d.Again)
    (apart : Document.Unambiguous ds) : Reads Reader.document ds.words ds AtEnd := by
  obtain ⟨d, ds, rfl⟩ := List.exists_cons_of_ne_nil some_
  obtain ⟨here, later⟩ := List.forall_mem_cons.mp again
  rw [Document.words, List.flatMap_cons]
  refine reads_bind here.1.reads (reads_bound fun n long => ?_) (ends_definition apart)
  have short := length_le_flatMap ds Definition.words fun d _ => by
    obtain ⟨w, us, words, -⟩ := opening_definition d
    rw [words]
    exact List.cons_ne_nil w us
  exact reads_map (reads_definitions (Nat.lt_of_le_of_lt short long) later apart.tail) (d :: ·)

/-- What a text is read as can be read again from its words, if its block strings can be written
    again. -/
theorem ofText_again {t : Text} {ds : Document} (read : Document.ofText t = .ok ds)
    (steady : ∀ l ∈ Lexed.scan t, l.IsSteady) : ds ≠ [] ∧ ∀ d ∈ ds, d.Again := by
  obtain ⟨s, start, read⟩ := except_bind_ok read
  obtain ⟨⟨_, s'⟩, read, given⟩ := except_bind_ok read
  cases given
  have sound : Lexed.Sound s.lexed := by
    rw [start_lexed start]
    exact scanFrom_sound 0 t steady
  exact (yields_document sound read).1

theorem start_of_words {t : Text} {ws : List Word}
    (scanned : (Lexed.scan t).map Lexed.word? = ws.map some) : ∃ s, Reader.start t = .ok s := by
  rw [Reader.start]
  cases lexed : Lexed.scan t with
  | nil => exact ⟨_, rfl⟩
  | cons l ls =>
      cases l with
      | token => exact ⟨_, rfl⟩
      | broken =>
          rw [lexed] at scanned
          cases ws with
          | nil => cases scanned
          | cons => cases (List.cons.inj scanned).1

/-- A text that spells the words of a document is read as this document. -/
theorem ofText_spelled {t : Text} {ds : Document} (spelled : Spelled t ds.words) (some_ : ds ≠ [])
    (again : ∀ d ∈ ds, d.Again) (apart : Document.Unambiguous ds) : Document.ofText t = .ok ds := by
  have scanned := spelled.scan 0
  obtain ⟨s, start⟩ := start_of_words scanned
  have shows_ : s.Shows (ds.words ++ [Word.eof]) := by
    rw [Stream.Shows, start_lexed start]
    exact scanned
  obtain ⟨s', read, -⟩ := reads_document some_ again apart shows_ (List.cons_ne_nil _ _) rfl
  simp only [Document.ofText, start, bind, Except.bind, StateT.run, read]
  rfl

end GraphQL

end ApprovedOps
