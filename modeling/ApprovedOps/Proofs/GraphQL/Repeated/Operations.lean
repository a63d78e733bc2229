import ApprovedOps.Proofs.GraphQL.Repeated.Readers

/-! # Operations and fragments that are taken again

From the words of the tokens that it took, the reader of a value, of a selection, of an operation or of
a fragment returns the same again, nested as deep as it may be. Only values and types may begin with a
bracket that is no parenthesis, so that they stand inside brackets.
-/

namespace ApprovedOps

namespace GraphQL

open Reader (mark)

variable {α β : Type} {r : Reader α} {again : Nat → Reader α} {P : List Token → Prop}
  {N : Word → List Word → Prop} {least : Nat}

/-- A bound that has to be positive is, since tokens are taken. -/
theorem repeats_positive (h : Repeats r (fun n => again (n - 1 + 1)) P N)
    (some_ : ∀ ⦃ts⦄, P ts → ts ≠ []) : Repeats r again P N := by
  intro s complete x s' run
  obtain ⟨ts, lexed, complete', p, reads⟩ := h complete run
  refine ⟨ts, lexed, complete', p, fun n long => ?_⟩
  have positive := List.length_pos_iff.mpr (some_ p)
  have same : n - 1 + 1 = n := by omega
  exact same ▸ reads n long

/-- A reader that takes tokens, and then one that may take some. -/
theorem repeats_begins {f : α → Reader β} {g : α → Nat → Reader β}
    (first : Repeats r again (Begun least) Meets)
    (second : ∀ x, Repeats (f x) (g x) (Level least) Meets) :
    Repeats (r >>= f) (fun n => again n >>= fun x => g x n) (Begun least) Meets :=
  repeats_bind begun_front guarded_meets first second

/-! ## Values -/

theorem repeats_entry {value : Reader Value} {again : Nat → Reader Value}
    (h : Repeats value again (Begun 1) Meets) :
    Repeats (Reader.entry value) (fun n => Reader.entry (again n)) (Begun 1) Meets :=
  repeats_begins repeats_name fun key =>
    repeats_weaken (repeats_plainMark rfl (repeats_map (repeats_weaken h) (key, ·)))

theorem repeats_constantVariable {again : Nat → Reader Value} :
    Repeats Reader.constantVariable again P N := by
  intro s complete x s' run
  obtain ⟨_, _, -, run⟩ := bind_ok run
  obtain ⟨_, _, -, run⟩ := bind_ok run
  split at run <;> cases run

/-- Only inside brackets may values be read: an object ends with a brace. -/
theorem repeats_value (isConst : Bool) (bound : Nat) :
    Repeats (Reader.value isConst bound) (Reader.value isConst) (Begun 1) Meets := by
  induction bound with
  | zero => exact fun _ _ _ _ run => by cases run
  | succ bound ih =>
      refine repeats_positive (repeats_current guarded_begun fun s t complete same => ?_)
        fun _ begun => begun.1
      have single (plain : s.current.kind.isPlain = true) (v : Value) :
          RepeatsAt s (Reader.advance >>= fun _ => pure v) (fun _ => Reader.advance >>= fun _ => pure v)
            (Begun 1) Meets :=
        repeatsAt_advance complete (plain_inside plain) (fun _ => begun_cons plain)
          (repeats_pure (level_nil 1) v)
      rw [word_kind same, word_value same]
      cases kind : s.current.kind with
      | int | float | string | blockString | name =>
          rw [kind] at single
          exact single rfl _
      | eof => exact repeatsAt_fail
      | mark text =>
          -- Parts are read with a smaller bound, where the induction says that they are read again.
          refine repeats_if ?_ (repeats_if ?_ (repeats_if ?_ repeats_fail)) complete
          · exact repeats_mono (repeats_map (repeats_any ih) Value.list)
              (paired_begun (.inr (.inl rfl))) fun _ _ _ => trivial
          · exact repeats_mono (repeats_map (repeats_any (repeats_entry ih)) Value.object)
              (paired_begun (.inr (.inr rfl))) fun _ _ _ => trivial
          · cases isConst with
            | true => exact repeats_constantVariable
            | false => exact repeats_map repeats_variableName Value.variable

/-! ## Directives -/

theorem repeats_arguments (isConst : Bool) :
    Repeats (Reader.arguments isConst) (fun _ => Reader.arguments isConst) (Level 0) Meets :=
  repeats_bound fun n => repeats_optionalMany (repeats_entry (repeats_value isConst n))

theorem repeats_directive (isConst : Bool) :
    Repeats (Reader.directive isConst) (fun _ => Reader.directive isConst) (Begun 0) Meets :=
  repeats_plainMark rfl (repeats_weaken (repeats_begins repeats_name fun n =>
    repeats_map (repeats_arguments isConst) (Directive.mk n)))

theorem repeats_directives (isConst : Bool) :
    Repeats (Reader.directives isConst) (fun _ => Reader.directives isConst) (Level 0) Meets :=
  repeats_itemsWhile (repeats_directive isConst)

/-! ## Types -/

theorem repeats_markedType (inner : TypeRef) :
    Repeats (markedType inner) (fun _ => markedType inner) (Level 1) Meets :=
  repeats_level (repeats_takes rfl) fun _ =>
    repeats_if (repeats_pure (level_nil 1) _) (repeats_pure (level_nil 1) _)

/-- What of a type comes after an opening bracket. -/
theorem repeats_listType {bound : Nat}
    (inner : Repeats (Reader.typeRef bound) Reader.typeRef (Begun 1) Meets) :
    Repeats (Reader.typeRef bound >>= fun t => Reader.expect (mark ']') >>= fun _ =>
        markedType (.list t))
      (fun n => Reader.typeRef (n - 1) >>= fun t => Reader.expect (mark ']') >>= fun _ =>
        markedType (.list t))
      (fun ts => ∃ us vs, ts = us ++ vs ∧ LeadsTo ']' us ∧ Level 1 vs) Meets := by
  intro s complete x s' run
  obtain ⟨t, s₁, read, next⟩ := bind_ok run
  obtain ⟨_, s₂, closed, next⟩ := bind_ok next
  obtain ⟨ts, lexed, complete₁, begun, reads⟩ := inner complete read
  obtain ⟨_, lexed₁, complete₂, last, rfl, closes⟩ :=
    consumes_expect (mark_inside ']') complete₁ closed
  obtain ⟨us, lexed₂, complete', level, marked⟩ := repeats_markedType (.list t) complete₂ next
  refine ⟨ts ++ [last] ++ us, ?_, complete', ⟨_, us, rfl, ⟨ts, last, rfl, begun.2, closes⟩, level⟩,
    fun n long => ?_⟩
  · simp [lexed, lexed₁, lexed₂]
  · simp only [List.length_append, List.length_singleton] at long
    rw [List.append_assoc, List.map_append, List.singleton_append, List.map_cons, Token.word, closes]
    refine reads_bind (reads (n - 1) (by omega)) (reads_expect fun _ _ =>
      marked us.length (Nat.le_refl _)) fun rest _ => ?_
    exact closes ▸ meets_next lexed₁ fun none_ => absurd none_ (List.cons_ne_nil last [])

theorem repeats_typeRef (bound : Nat) :
    Repeats (Reader.typeRef bound) Reader.typeRef (Begun 1) Meets := by
  induction bound with
  | zero => exact fun _ _ _ _ run => by cases run
  | succ bound ih =>
      refine repeats_positive (repeats_takes_bind guarded_begun (mark_inside '[') ?_
        (repeats_listType ih) (repeats_begins repeats_name fun n => repeats_markedType (.named n)))
        fun _ begun => begun.1
      rintro t _ opens ⟨us, vs, rfl, leads, level⟩
      exact begun_front (paired_begun (.inr (.inl rfl)) ⟨t, us, rfl, opens, leads⟩) level

theorem repeats_type : Repeats Reader.type (fun _ => Reader.type) (Begun 1) Meets :=
  repeats_bound repeats_typeRef

theorem repeats_defaultValue :
    Repeats Reader.defaultValue (fun _ => Reader.defaultValue) (Level 1) Meets :=
  repeats_level (repeats_takes rfl) fun _ => repeats_if
    (repeats_bound fun n => repeats_map (repeats_weaken (repeats_value true n)) some)
    (repeats_pure (level_nil 1) none)

theorem repeats_variableDefinition :
    Repeats Reader.variableDefinition (fun _ => Reader.variableDefinition) (Begun 1) Meets :=
  repeats_bind begun_back guarded_begun repeats_description fun desc =>
    repeats_begins repeats_variableName fun n =>
      repeats_weaken (repeats_plainMark rfl (repeats_level (repeats_weaken repeats_type) fun t =>
        repeats_level repeats_defaultValue fun v =>
          repeats_map (repeats_inside (repeats_directives true)) (VariableDefinition.mk desc n t v)))

/-! ## Selections -/

theorem dots_inside : TokenKind.mark (Text.ofString "...") ≠ .eof := nofun

theorem dots_plain : (TokenKind.mark (Text.ofString "...")).isPlain = true := by decide

section

variable {selections : Reader (List Selection)} {again : Nat → Reader (List Selection)}
  (inner : Repeats selections again (Level 1) Meets)

include inner

theorem repeats_spread :
    Repeats (Reader.spread selections) (fun n => Reader.spread (again n)) (Begun 1) Meets := by
  have directives := repeats_inside (repeats_directives false)
  have rest (type : Option Text) : Repeats
      (Reader.directives false >>= fun ds => selections >>= fun ss =>
        pure (Selection.inline type ds ss))
      (fun n => Reader.directives false >>= fun ds => again n >>= fun ss =>
        pure (Selection.inline type ds ss)) (Level 1) Meets :=
    repeats_level directives fun ds => repeats_map inner (Selection.inline type ds)
  refine repeats_expect dots_inside (fun t us kind => begun_cons (kind ▸ dots_plain)) fun _ _ _ =>
    repeats_level (repeats_takesWord "on") fun _ => repeats_if ?_ ?_
  · exact repeats_level (repeats_weaken repeats_name) fun n => rest (some n)
  · refine repeats_level (repeats_isAt .name) fun _ => repeats_if ?_ (rest none)
    exact repeats_level (repeats_weaken repeats_fragmentName) fun n =>
      repeats_map directives (Selection.spread n)

theorem repeats_fieldRest (label : Option Text) (n : Text) :
    Repeats (fieldRest selections label n) (fun m => fieldRest (again m) label n) (Level 1) Meets :=
  repeats_level (repeats_inside (repeats_arguments false)) fun args =>
    repeats_level (repeats_inside (repeats_directives false)) fun ds =>
      repeats_level (repeats_isAt _) fun _ => repeats_if
        (repeats_map inner fun ss => Selection.field label n args ds (some ss))
        (repeats_pure (level_nil 1) _)

theorem repeats_field :
    Repeats (Reader.field selections) (fun n => Reader.field (again n)) (Begun 1) Meets := by
  simp only [field_eq]
  refine repeats_begins repeats_name fun first => repeats_level (repeats_takes rfl) fun _ =>
    repeats_if ?_ (repeats_fieldRest inner none first)
  exact repeats_level (repeats_weaken repeats_name) (repeats_fieldRest inner (some first))

end

/-- Selections are taken with the braces around them. -/
theorem repeats_selectionSet (bound : Nat) :
    Repeats (Reader.selectionSet bound) Reader.selectionSet (Paired '\x7b' '\x7d') Anyhow := by
  induction bound with
  | zero => exact fun _ _ _ _ run => by cases run
  | succ bound ih =>
      have inner : Repeats (Reader.selectionSet bound) Reader.selectionSet (Level 1) Meets :=
        repeats_meets (repeats_mono ih (paired_level (.inr (.inr rfl))) fun _ _ next => next)
      have item : Repeats (selectionAt bound) selectionAt (Begun 1) Meets :=
        repeats_asks guarded_begun fun _ => repeats_if (repeats_spread inner) (repeats_field inner)
      exact repeats_positive (repeats_any item) fun _ paired => (paired_begun (.inr (.inr rfl)) paired).1

theorem repeats_selections :
    Repeats Reader.selections (fun _ => Reader.selections) Whole Anyhow :=
  repeats_bound fun n => repeats_mono (repeats_selectionSet n) braces_whole fun _ _ next => next

/-! ## Operations and fragments -/

/-- The selections at the end close all brackets. -/
theorem repeats_closed {f : α → Reader β} {g : α → Nat → Reader β}
    (first : Repeats r again (Level 0) Meets) (second : ∀ x, Repeats (f x) (g x) Whole Anyhow) :
    Repeats (r >>= f) (fun n => again n >>= fun x => g x n) Whole Anyhow :=
  repeats_bind whole_append guarded_whole first second

theorem repeats_operationRest (desc : Option Description) (kind : OperationKind) (n : Option Text) :
    Repeats (operationRest desc kind n) (fun _ => operationRest desc kind n) Whole Anyhow :=
  repeats_closed (repeats_optionalMany repeats_variableDefinition) fun vs =>
    repeats_closed (repeats_directives false) fun ds =>
      repeats_map repeats_selections (Operation.mk desc kind n vs ds)

/-- An operation is read again in front of anything. -/
theorem repeats_operation : Repeats Reader.operation (fun _ => Reader.operation) Whole Anyhow := by
  simp only [operation_eq]
  refine repeats_asks guarded_whole fun _ => repeats_if ?_ ?_
  · exact repeats_map repeats_selections (Operation.mk none .query none [] [])
  · refine repeats_closed repeats_description fun desc =>
      repeats_closed (repeats_weaken repeats_operationKind) fun kind =>
        repeats_closed (repeats_isAt .name) fun _ => repeats_if ?_ (repeats_operationRest desc kind none)
    exact repeats_closed (repeats_weaken repeats_name) fun n =>
      repeats_operationRest desc kind (some n)

/-- A fragment is read again in front of anything. -/
theorem repeats_fragment : Repeats Reader.fragment (fun _ => Reader.fragment) Whole Anyhow :=
  repeats_closed repeats_description fun desc =>
    repeats_closed (repeats_weaken (repeats_expectWord "fragment")) fun _ =>
      repeats_closed (repeats_weaken repeats_fragmentName) fun n =>
        repeats_closed (repeats_weaken (repeats_expectWord "on")) fun _ =>
          repeats_closed (repeats_weaken repeats_name) fun type =>
            repeats_closed (repeats_directives false) fun ds =>
              repeats_map repeats_selections (Definition.fragment desc n type ds)

end GraphQL

end ApprovedOps
