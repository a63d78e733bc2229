import ApprovedOps.Proofs.GraphQL.Repeated.Operations
import ApprovedOps.Proofs.GraphQL.Rereading.Documents

/-! # Definitions that are taken again

A document of operations and fragments is taken definition by definition, the tokens of each up to the
brace that closes all brackets. A definition without a description begins with its keyword, and it is
read again from the words of its tokens alone.
-/

namespace ApprovedOps

namespace GraphQL

open Reader (mark)

/-! ## Requests -/

/-- Is the definition an operation with a name, or a fragment? -/
def Definition.IsRequest : Definition → Prop
  | .operation o => o.name.isSome = true
  | .fragment .. => True
  | _ => False

/-- Is the operation or fragment without a description? -/
def Definition.Undescribed : Definition → Prop
  | .operation o => o.description = none
  | .fragment desc .. => desc = none
  | _ => True

instance : (d : Definition) → Decidable d.IsRequest
  | .operation o => inferInstanceAs (Decidable (o.name.isSome = true))
  | .fragment .. => inferInstanceAs (Decidable True)
  | .schema .. | .type .. | .directive .. | .extendSchema .. | .extendType .. =>
    inferInstanceAs (Decidable False)

instance : (d : Definition) → Decidable d.Undescribed
  | .operation o => inferInstanceAs (Decidable (o.description = none))
  | .fragment desc .. => inferInstanceAs (Decidable (desc = none))
  | .schema .. | .type .. | .directive .. | .extendSchema .. | .extendType .. =>
    inferInstanceAs (Decidable True)

/-- Do the tokens begin as the operation or fragment does: with the word of a kind of operation, or with
    `fragment` and a name? -/
def Definition.Leads (d : Definition) (ts : List Token) : Prop :=
  match d with
  | .operation _ => ∃ kind first rest, ts = first :: rest ∧
      first.word = .name (Layout.operationKind kind)
  | .fragment _ n .. => n ≠ Text.ofString "on" ∧ ∃ first second rest, ts = first :: second :: rest ∧
      first.word = .name "fragment" ∧ second.word = .name n
  | _ => False

/-- Are these the tokens of the definition? -/
structure Definition.Taken (d : Definition) (ts : List Token) : Prop where
  whole : Whole ts
  leads : d.Undescribed → d.Leads ts
  again : d.Undescribed → Reads Reader.definition (ts.map Token.word) d Anything

/-! ## What definitions are read by -/

variable {α β : Type} {s s' : Stream} {d : Definition} {ts : List Token}

/-- Does the property hold of whatever the reader returns? -/
def Returns (r : Reader α) (P : α → Prop) : Prop :=
  ∀ ⦃s x s'⦄, r s = .ok (x, s') → P x

theorem returns_bind {r : Reader α} {f : α → Reader β} {P : β → Prop} (h : ∀ x, Returns (f x) P) :
    Returns (r >>= f) P := by
  intro s y s' run
  obtain ⟨x, _, -, run⟩ := bind_ok run
  exact h x run

theorem returns_pure {P : α → Prop} {x : α} (h : P x) : Returns (pure x) P := by
  rintro s y s' ⟨⟩
  exact h

theorem returns_if {P : α → Prop} {c : Prop} [Decidable c] {r₁ r₂ : Reader α} (yes : Returns r₁ P)
    (no : Returns r₂ P) : Returns (if c then r₁ else r₂) P := by
  split
  next => exact yes
  next => exact no

theorem returns_fail {P : α → Prop} {t : Token} {problem : Problem} :
    Returns (Reader.fail t problem) P := by
  rintro s y s' ⟨⟩

theorem map_ok {r : Reader α} {f : α → β} {y : β}
    (h : (r >>= fun x => pure (f x)) s = .ok (y, s')) : ∃ x, y = f x ∧ r s = .ok (x, s') := by
  obtain ⟨x, _, run, made⟩ := bind_ok h
  cases made
  exact ⟨x, rfl, run⟩

/-- Is the definition neither an operation nor a fragment? -/
def Definition.IsOther : Definition → Prop
  | .operation _ | .fragment .. => False
  | _ => True

theorem returns_schema : Returns Reader.schema Definition.IsOther :=
  returns_bind fun _ => returns_bind fun _ => returns_bind fun _ => returns_bind fun _ =>
    returns_pure trivial

theorem returns_directiveDefinition : Returns Reader.directiveDefinition Definition.IsOther :=
  returns_bind fun _ => returns_bind fun _ => returns_bind fun _ => returns_bind fun _ =>
    returns_bind fun _ => returns_bind fun _ => returns_bind fun _ => returns_bind fun _ =>
      returns_pure trivial

theorem returns_extension : Returns Reader.extension Definition.IsOther := by
  have refused {P : Definition → Prop} : Returns (Reader.current >>= Reader.unexpected) P :=
    returns_bind fun _ => returns_fail
  refine returns_bind fun t => returns_if ?_ ?_
  · exact returns_bind fun _ => returns_bind fun _ => returns_bind fun _ => returns_bind fun _ =>
      returns_if refused (returns_pure trivial)
  · cases if t.kind = .name then Reader.typeWord? t.value else none with
    | none => exact returns_fail
    | some kind =>
        exact returns_bind fun _ => returns_bind fun _ => returns_bind fun _ =>
          returns_if refused (returns_pure trivial)

theorem returns_fragment :
    Returns Reader.fragment fun d => ∃ desc n type ds ss, d = .fragment desc n type ds ss :=
  returns_bind fun _ => returns_bind fun _ => returns_bind fun _ => returns_bind fun _ =>
    returns_bind fun _ => returns_bind fun _ => returns_bind fun _ =>
      returns_pure ⟨_, _, _, _, _, rfl⟩

/-- What a definition is read by, if it is an operation or a fragment. -/
def ReadAs (s : Stream) (d : Definition) (s' : Stream) : Prop :=
  (∃ o, d = .operation o ∧ Reader.operation s = .ok (o, s')) ∨
    Reader.fragment s = .ok (d, s') ∨ d.IsOther

theorem operation_readAs
    (h : (Reader.operation >>= fun o => pure (Definition.operation o)) s = .ok (d, s')) :
    ReadAs s d s' := by
  obtain ⟨o, rfl, run⟩ := map_ok h
  exact .inl ⟨o, rfl, run⟩

theorem described_readAs {t : Token} {b : Bool} (h : Reader.described t b s = .ok (d, s')) :
    ReadAs s d s' := by
  rw [Reader.described] at h
  split at h
  · cases h
  split at h
  · exact .inr (.inr (returns_schema h))
  split at h
  · exact .inr (.inr (returns_directiveDefinition h))
  cases word : Reader.typeWord? t.value with
  | some kind =>
      rw [word] at h
      have other : Returns (Reader.description >>= fun desc => Reader.advance >>= fun _ =>
          Reader.typeRest kind >>= fun rest => pure (.type desc rest.1 rest.2.1 rest.2.2))
          Definition.IsOther :=
        returns_bind fun _ => returns_bind fun _ => returns_bind fun _ => returns_pure trivial
      exact .inr (.inr (other h))
  | none =>
      rw [word] at h
      dsimp only at h
      split at h
      · exact operation_readAs h
      split at h
      · exact .inr (.inl h)
      split at h
      · obtain ⟨_, _, -, h⟩ := bind_ok h
        cases h
      split at h
      · exact .inr (.inr (returns_extension h))
      · cases h

theorem asks_ok {kind : TokenKind} {b : Bool} (h : Reader.isAt kind s = .ok (b, s')) :
    b = decide (s.current.kind = kind) ∧ s' = s := by
  cases h
  exact ⟨rfl, rfl⟩

theorem lookahead_stays {t : Token} (h : Reader.lookahead s = .ok (t, s')) : s' = s := by
  rw [Reader.lookahead.eq_def] at h
  split at h <;> cases h <;> rfl

theorem definition_readAs (h : Reader.definition s = .ok (d, s')) : ReadAs s d s' := by
  rw [Reader.definition, current_bind] at h
  split at h
  · exact operation_readAs h
  split at h
  · obtain ⟨t, s₁, looked, h⟩ := bind_ok h
    rw [lookahead_stays looked] at h
    split at h
    · cases h
    · exact described_readAs h
  · exact described_readAs h

/-! ## What definitions begin with -/

theorem description_none (h : Reader.description s = .ok (none, s')) : s' = s := by
  rw [Reader.description, current_bind] at h
  split at h
  · obtain ⟨_, _, -, made⟩ := bind_ok h
    cases made
  · cases h
    rfl

theorem expect_ok {kind : TokenKind} {t : Token} (h : Reader.expect kind s = .ok (t, s')) :
    t = s.current ∧ t.kind = kind := by
  rw [Reader.expect, current_bind] at h
  split at h
  next here =>
    obtain ⟨_, _, -, given⟩ := bind_ok h
    cases given
    exact ⟨rfl, here⟩
  next => cases h

theorem name_ok {n : Text} (h : Reader.name s = .ok (n, s')) : s.current.word = .name n := by
  obtain ⟨t, _, expected, made⟩ := bind_ok h
  cases made
  obtain ⟨rfl, kind⟩ := expect_ok expected
  rw [Token.word, kind]
  rfl

theorem operationKind?_layout {word : Text} {kind : OperationKind}
    (h : Reader.operationKind? word = some kind) : word = Layout.operationKind kind := by
  unfold Reader.operationKind? at h
  split at h
  next same =>
    cases h
    exact same
  split at h
  next same =>
    cases h
    exact same
  split at h
  next same =>
    cases h
    exact same
  next => cases h

/-- What is read behind the keyword of an operation keeps its description. -/
theorem returns_rest {desc : Option Description} {kind : OperationKind} :
    Returns (do
      if ← Reader.isAt .name then
        operationRest desc kind (some (← Reader.name))
      else
        operationRest desc kind none) fun o => o.description = desc := by
  have rest (n : Option Text) : Returns (operationRest desc kind n) fun o => o.description = desc :=
    returns_bind fun _ => returns_bind fun _ => returns_bind fun _ => returns_pure rfl
  exact returns_bind fun _ => returns_if (returns_bind fun n => rest (some n)) (rest none)

/-- What is read behind the name of a fragment keeps its description and its name. -/
theorem returns_fragmentRest {desc : Option Description} {word : Text} :
    Returns (do
      Reader.expectWord "on"
      let type ← Reader.name
      let ds ← Reader.directives false
      return Definition.fragment desc word type ds (← Reader.selections))
      fun d => ∃ type ds ss, d = .fragment desc word type ds ss :=
  returns_bind fun _ => returns_bind fun _ => returns_bind fun _ => returns_bind fun _ =>
    returns_pure ⟨_, _, _, rfl⟩

/-- An operation with a name and without a description begins with its keyword. -/
theorem operation_leads {o : Operation} (h : Reader.operation s = .ok (o, s'))
    (named : o.name.isSome = true) (plain : o.description = none) :
    ∃ kind, s.current.word = .name (Layout.operationKind kind) := by
  rw [operation_eq] at h
  obtain ⟨b, _, asked, h⟩ := bind_ok h
  cases asked
  split at h
  · obtain ⟨_, _, -, made⟩ := bind_ok h
    cases made
    cases named
  · obtain ⟨desc, s₁, described, h⟩ := bind_ok h
    obtain ⟨kind, s₂, introduced, h⟩ := bind_ok h
    rw [← returns_rest h, plain] at described
    rw [description_none described] at introduced
    obtain ⟨t, _, expected, given⟩ := bind_ok introduced
    obtain ⟨rfl, isName⟩ := expect_ok expected
    cases word : Reader.operationKind? s.current.value with
    | none =>
        rw [word] at given
        cases given
    | some kind' => exact ⟨kind', by rw [Token.word, isName, operationKind?_layout word]; rfl⟩

/-- A fragment without a description begins with `fragment` and its name. -/
theorem fragment_leads {n type : Text} {ds : List Directive} {ss : List Selection}
    (complete : Lexed.Complete s.lexed)
    (h : Reader.fragment s = .ok (.fragment none n type ds ss, s')) :
    s.current.word = .name "fragment" ∧ n ≠ Text.ofString "on" ∧ ∃ t more,
      s.rest = .token t :: more ∧ t.word = .name n := by
  obtain ⟨desc, s₁, described, h⟩ := bind_ok h
  obtain ⟨_, s₂, introduced, h⟩ := bind_ok h
  obtain ⟨word, s₃, named, h⟩ := bind_ok h
  obtain ⟨_, _, _, made⟩ := returns_fragmentRest h
  cases made
  rw [description_none described] at introduced
  rw [Reader.expectWord, current_bind] at introduced
  split at introduced
  next here =>
    obtain ⟨lexed, -⟩ := advance_takes complete (plain_inside (isWord_plain here)) introduced
    rw [Reader.fragmentName, current_bind] at named
    split at named
    · cases named
    next other =>
      have word := name_ok named
      refine ⟨isWord_word.mp here, ?_, s₂.current, s₂.rest, (List.cons.inj lexed).2, word⟩
      exact fun on_ => other ((Prod.mk.inj word).2.trans on_)
  next => cases introduced

theorem description_some {desc : Description} (h : Reader.description s = .ok (some desc, s')) :
    Reader.isString s.current = true := by
  rw [Reader.description, current_bind] at h
  split at h
  next isString => exact isString
  next => cases h

/-- Only a string describes what comes behind it. -/
theorem definition_undescribed (h : Reader.definition s = .ok (d, s')) (request : d.IsRequest)
    (plain : ¬Reader.isString s.current = true) : d.Undescribed := by
  have none_ {desc : Option Description} {s' : Stream} (h : Reader.description s = .ok (desc, s')) :
      desc = none := by
    cases desc with
    | none => rfl
    | some desc => exact absurd (description_some h) plain
  obtain ⟨o, rfl, run⟩ | run | other := definition_readAs h
  · rw [operation_eq] at run
    obtain ⟨b, _, asked, run⟩ := bind_ok run
    cases asked
    split at run
    · obtain ⟨_, _, -, made⟩ := bind_ok run
      cases made
      rfl
    · obtain ⟨desc, s₁, described, run⟩ := bind_ok run
      obtain ⟨kind, s₂, -, run⟩ := bind_ok run
      exact (returns_rest run).trans (none_ described)
  · obtain ⟨desc, s₁, described, run⟩ := bind_ok run
    obtain ⟨_, s₂, -, run⟩ := bind_ok run
    obtain ⟨word, s₃, -, run⟩ := bind_ok run
    obtain ⟨_, _, _, rfl⟩ := returns_fragmentRest run
    exact none_ described
  · cases d with
    | operation | fragment => exact other.elim
    | _ => exact request.elim

theorem ofText_undescribed {t : Text} {first : Token} {more : List Lexed} {ds : Document}
    (h : Document.ofText t = .ok (d :: ds)) (request : d.IsRequest)
    (scanned : Lexed.scan t = .token first :: more) (plain : ¬Reader.isString first = true) :
    d.Undescribed := by
  obtain ⟨s, started, h⟩ := except_bind_ok h
  obtain ⟨⟨_, s'⟩, run, made⟩ := except_bind_ok h
  cases made
  obtain ⟨d', s₁, read, run⟩ := bind_ok run
  obtain ⟨_, _, -, run⟩ := bind_ok run
  obtain ⟨ds', same, -⟩ := map_ok run
  obtain ⟨rfl, -⟩ := List.cons.inj same
  have current : s.current = first :=
    Lexed.token.inj (List.cons.inj ((start_lexed started).trans scanned)).1
  exact definition_undescribed read request (current ▸ plain)

/-! ## Documents -/

theorem whole_long (h : Whole ts) : ∃ first second rest, ts = first :: second :: rest := by
  obtain ⟨inner, last, rfl, nested, -⟩ := h
  match inner with
  | [] => cases nested
  | [first] => exact ⟨first, last, [], rfl⟩
  | first :: second :: inner => exact ⟨first, second, inner ++ [last], rfl⟩

/-- A definition that is an operation with a name, or a fragment, is taken up to the brace that closes
    all brackets. -/
theorem definition_taken (complete : Lexed.Complete s.lexed)
    (h : Reader.definition s = .ok (d, s')) (request : d.IsRequest) :
    ∃ ts, s.lexed = ts.map .token ++ s'.lexed ∧ Lexed.Complete s'.lexed ∧ d.Taken ts := by
  obtain ⟨o, rfl, run⟩ | run | other := definition_readAs h
  · obtain ⟨ts, lexed, complete', whole, reads⟩ := repeats_operation complete run
    obtain ⟨first, second, rest, rfl⟩ := whole_long whole
    obtain ⟨here, -⟩ := List.cons.inj lexed
    have leads (plain : o.description = none) :
        ∃ kind, first.word = .name (Layout.operationKind kind) := by
      rw [← Lexed.token.inj here]
      exact operation_leads run request plain
    refine ⟨_, lexed, complete', whole, fun plain => ?_, fun plain => ?_⟩
    · obtain ⟨kind, word⟩ := leads plain
      exact ⟨kind, first, _, rfl, word⟩
    · obtain ⟨kind, word⟩ := leads plain
      have again := reads _ (Nat.le_refl _)
      rw [List.map_cons, word] at again ⊢
      refine reads_definition none fun t same => ?_
      rw [described_operation same]
      exact reads_map again Definition.operation
  · obtain ⟨desc, n, type, ds, ss, rfl⟩ := returns_fragment run
    obtain ⟨ts, lexed, complete', whole, reads⟩ := repeats_fragment complete run
    obtain ⟨first, second, rest, rfl⟩ := whole_long whole
    obtain ⟨here, more⟩ := List.cons.inj lexed
    have leads (plain : desc = none) :
        first.word = .name "fragment" ∧ n ≠ Text.ofString "on" ∧ second.word = .name n := by
      subst plain
      obtain ⟨word, other, t, _, next, name⟩ := fragment_leads complete run
      refine ⟨Lexed.token.inj here ▸ word, other, ?_⟩
      rw [Lexed.token.inj (List.cons.inj (more.symm.trans next)).1]
      exact name
    refine ⟨_, lexed, complete', whole, fun plain => ?_, fun plain => ?_⟩
    · obtain ⟨word, other, name⟩ := leads plain
      exact ⟨other, first, second, rest, rfl, word, name⟩
    · have again := reads _ (Nat.le_refl _)
      rw [List.map_cons, (leads plain).1] at again ⊢
      refine reads_definition none fun t same => ?_
      rw [described_fragment same]
      exact again
  · cases d with
    | operation | fragment => exact other.elim
    | _ => exact request.elim

/-- Definitions that are operations with a name, or fragments, are taken one after the other, up to the
    end of the text. -/
theorem definitions_taken {n : Nat} {ds : Document} (complete : Lexed.Complete s.lexed)
    (h : Reader.definitions n s = .ok (ds, s')) (requests : ∀ d ∈ ds, d.IsRequest) :
    ∃ (tss : List (List Token)) (last : Token), s.lexed = tss.flatten.map .token ++ [.token last] ∧
      last.kind = .eof ∧ List.Forall₂ Definition.Taken ds tss := by
  induction n generalizing s ds with
  | zero => cases h
  | succ n ih =>
      obtain ⟨b, s₁, asked, next⟩ := bind_ok h
      obtain ⟨rfl, same⟩ := asks_ok asked
      rw [same] at next
      by_cases ended : s.current.kind = .eof
      · rw [decide_eq_true ended] at next
        cases next
        rw [Stream.lexed, Lexed.Complete, if_pos ended] at complete
        exact ⟨[], s'.current, by rw [Stream.lexed, complete]; rfl, ended, .nil⟩
      · rw [decide_eq_false ended] at next
        obtain ⟨d, s₁, read, next⟩ := bind_ok next
        obtain ⟨ds, rfl, further⟩ := map_ok next
        obtain ⟨request, others⟩ := List.forall_mem_cons.mp requests
        obtain ⟨ts, lexed, complete₁, taken⟩ := definition_taken complete read request
        obtain ⟨tss, last, lexed₁, isEnd, all⟩ := ih complete₁ further others
        refine ⟨ts :: tss, last, ?_, isEnd, .cons taken all⟩
        rw [lexed, lexed₁, List.flatten_cons, List.map_append, List.append_assoc]

/-- The tokens of a text of operations with names and of fragments are those of its definitions. -/
theorem ofText_taken {t : Text} {ds : Document} (h : Document.ofText t = .ok ds)
    (requests : ∀ d ∈ ds, d.IsRequest) :
    ∃ (tss : List (List Token)) (last : Token),
      Lexed.scan t = tss.flatten.map .token ++ [.token last] ∧ last.kind = .eof ∧
        List.Forall₂ Definition.Taken ds tss := by
  obtain ⟨s, started, h⟩ := except_bind_ok h
  obtain ⟨⟨_, s'⟩, run, made⟩ := except_bind_ok h
  cases made
  have lexed := start_lexed started
  have complete : Lexed.Complete s.lexed := lexed ▸ scanFrom_complete 0 t
  obtain ⟨d, s₁, read, run⟩ := bind_ok run
  obtain ⟨_, _, bounded, run⟩ := bind_ok run
  cases bounded
  obtain ⟨ds, rfl, further⟩ := map_ok run
  obtain ⟨request, others⟩ := List.forall_mem_cons.mp requests
  obtain ⟨ts, lexed₁, complete₁, taken⟩ := definition_taken complete read request
  obtain ⟨tss, last, lexed₂, isEnd, all⟩ := definitions_taken complete₁ further others
  refine ⟨ts :: tss, last, ?_, isEnd, .cons taken all⟩
  rw [← lexed, lexed₁, lexed₂, List.flatten_cons, List.map_append, List.append_assoc]

/-- A text with the words of a definition that needs nothing behind it is read as this definition. -/
theorem ofText_alone {t : Text} {ws : List Word}
    (scanned : (Lexed.scan t).map Lexed.word? = (ws ++ [Word.eof]).map some)
    (reads : Reads Reader.definition ws d Anything) : Document.ofText t = .ok [d] := by
  obtain ⟨s, started⟩ := start_of_words scanned
  have shows_ : s.Shows (ws ++ [Word.eof]) := by
    rw [Stream.Shows, start_lexed started]
    exact scanned
  have document : Reads Reader.document ws [d] AtEnd := by
    have ended : Reads (Reader.bound >>= fun n => Reader.definitions n >>= fun ds => pure (d :: ds))
        [] [d] AtEnd := by
      refine reads_bound fun n long => ?_
      obtain ⟨n, rfl⟩ := Nat.exists_eq_succ_of_ne_zero (Nat.ne_of_gt long)
      exact reads_map (reads_atEnd (reads_pure [])) (d :: ·)
    have both : Reads Reader.document (ws ++ []) [d] AtEnd :=
      reads_bind reads ended fun _ _ => trivial
    rwa [List.append_nil] at both
  obtain ⟨s', read, -⟩ := document shows_ (List.cons_ne_nil _ _) rfl
  simp only [Document.ofText, started, bind, Except.bind, StateT.run, read]
  rfl

end GraphQL

end ApprovedOps
