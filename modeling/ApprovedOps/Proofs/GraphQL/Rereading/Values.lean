import ApprovedOps.Proofs.GraphQL.Yielding

/-! # Values, types and descriptions that are read again

What a reader returns it returns again when it is given the words of what it returned, in front of
what does not continue it. For the parts that definitions have in common.
-/

namespace ApprovedOps

namespace GraphQL

open Reader (mark)

variable {α β : Type}

/-- Are the words well-formed, and are they read as this, in front of what `next` holds of? -/
structure Rereads (r : Reader α) (ws : List Word) (x : α) (next : List Word → Prop) : Prop where
  sound : Sound ws
  reads : Reads r ws x next

theorem length_le_words (words : α → List Word) {xs : List α} {x : α} (among : x ∈ xs) :
    (words x).length ≤ (xs.flatMap words).length := by
  obtain ⟨before, after, rfl⟩ := List.append_of_mem among
  simp only [List.flatMap_append, List.flatMap_cons, List.length_append]
  omega

/-! ## Values -/

theorem valueWords_eq (vs : List Value) : valueWords vs = vs.flatMap Value.words := by
  induction vs with
  | nil => rfl
  | cons v vs ih => rw [valueWords, ih, List.flatMap_cons]

/-- The words of a named value. -/
def pairWords (e : Text × Value) : List Word :=
  .name e.1 :: .mark ':' :: e.2.words

theorem entryWords_eq (es : List (Text × Value)) : entryWords es = es.flatMap pairWords := by
  induction es with
  | nil => rfl
  | cons e es ih =>
      rw [entryWords, ih]
      rfl

/-- Is the value read again, wherever it may be nested as deep? -/
def Value.Again (isConst : Bool) (v : Value) : Prop :=
  Sound v.words ∧ ∀ n, v.words.length ≤ n → Reads (Reader.value isConst n) v.words v Anything

/-- Is the named value read again, wherever it may be nested as deep? -/
def EntryAgain (isConst : Bool) (e : Text × Value) : Prop :=
  e.1.isName = true ∧ e.2.Again isConst

theorem value_startsOutside (v : Value) : StartsOutside [']'] v.words := by
  cases v with
  | boolean b => cases b <;> exact startsOutside_name
  | null | enum => exact startsOutside_name
  | «variable» | list | object => exact startsOutside_mark (by decide)
  | int | float => exact startsOutside_cons fun _ _ => nofun
  | string isBlock => cases isBlock <;> exact startsOutside_cons fun _ _ => nofun

theorem yields_entry {value : Reader Value} {P : Value → Prop} (h : Yields value P) :
    Yields (Reader.entry value) fun e => e.1.isName = true ∧ P e.2 :=
  yields_bind yields_name fun _ name => yields_mark fun _ =>
    yields_bind h fun _ again => yields_pure ⟨name, again⟩

theorem reads_entry {value : Reader Value} {e : Text × Value}
    (h : Reads value e.2.words e.2 Anything) :
    Reads (Reader.entry value) (pairWords e) e Anything :=
  reads_named (reads_mark fun _ => reads_map h (e.1, ·))

theorem sound_entries {isConst : Bool} {es : List (Text × Value)}
    (again : ∀ e ∈ es, EntryAgain isConst e) : Sound (entryWords es) := by
  rw [entryWords_eq, sound_flatMap]
  intro e among
  obtain ⟨name, sound, -⟩ := again e among
  simp [pairWords, name, sound]

/-- Named values are read again if the bound is not less than the number of their words. -/
theorem reads_entries {isConst : Bool} {es : List (Text × Value)} {n : Nat}
    (again : ∀ e ∈ es, EntryAgain isConst e) (deep : (entryWords es).length ≤ n) :
    ∀ e ∈ es, Reads (Reader.entry (Reader.value isConst n)) (pairWords e) e (Avoids []) := by
  intro e among
  have short := length_le_words pairWords among
  rw [← entryWords_eq] at short
  refine reads_anywhere (reads_entry ((again e among).2.2 n ?_))
  rw [pairWords, List.length_cons, List.length_cons] at short
  omega

theorem entry_startsOutside {marks : List Char} (e : Text × Value) :
    StartsOutside marks (pairWords e) :=
  startsOutside_name

theorem namedValue_words (n : Text) : (Reader.namedValue n).words = [.name n] := by
  simp only [Reader.namedValue]
  split
  next same => rw [same]; rfl
  next =>
    split
    next same => rw [same]; rfl
    next =>
      split
      next same => rw [same]; rfl
      next => rfl

theorem deep_succ {ws : List Word} {n : Nat} (some_ : ws ≠ []) (deep : ws.length ≤ n) :
    ∃ m, n = m + 1 ∧ ws.length ≤ m + 1 := by
  have long := List.length_pos_iff.mpr some_
  exact ⟨n - 1, by omega, by omega⟩

theorem list_again {isConst : Bool} {vs : List Value} (again : ∀ v ∈ vs, v.Again isConst) :
    (Value.list vs).Again isConst := by
  have words : (Value.list vs).words = enclosed '[' ']' (vs.flatMap Value.words) := by
    rw [Value.words, valueWords_eq]
  rw [Value.Again, words]
  refine ⟨?_, fun n deep => ?_⟩
  · rw [sound_enclosed, sound_flatMap]
    exact fun v among => (again v among).1
  · obtain ⟨n, rfl, deep⟩ := deep_succ (List.cons_ne_nil _ _) deep
    refine reads_current fun t same => ?_
    have kind : t.kind = .mark [.char '['] := (Prod.mk.inj same).1
    simp only [kind, mark, if_true]
    have each (v : Value) (among : v ∈ vs) : Reads (Reader.value isConst n) v.words v (Avoids []) := by
      refine reads_anywhere ((again v among).2 n ?_)
      have short := length_le_words Value.words among
      simp only [enclosed, List.length_cons, List.length_append] at deep
      omega
    exact reads_map (reads_any List.not_mem_nil each fun v _ => value_startsOutside v) Value.list

theorem object_again {isConst : Bool} {es : List (Text × Value)}
    (again : ∀ e ∈ es, EntryAgain isConst e) : (Value.object es).Again isConst := by
  have words : (Value.object es).words = enclosed '\x7b' '\x7d' (es.flatMap pairWords) := by
    rw [Value.words, entryWords_eq]
  rw [Value.Again, words]
  refine ⟨?_, fun n deep => ?_⟩
  · rw [sound_enclosed, ← entryWords_eq]
    exact sound_entries again
  · obtain ⟨n, rfl, deep⟩ := deep_succ (List.cons_ne_nil _ _) deep
    refine reads_current fun t same => ?_
    have kind : t.kind = .mark [.char '\x7b'] := (Prod.mk.inj same).1
    simp only [kind, mark, if_true]
    rw [if_neg (by decide)]
    have short : (entryWords es).length ≤ n := by
      simp only [enclosed, List.length_cons, List.length_append] at deep
      rw [entryWords_eq]
      omega
    exact reads_map (reads_any List.not_mem_nil (reads_entries again short) fun e _ =>
      entry_startsOutside e) Value.object

/-- A value that is a single word is read again if it is made of the kind and the value of its
    word. -/
theorem single_again {isConst : Bool} {v : Value} {w : Word} (words : v.words = [w]) (sound : w.Sound)
    (reads : ∀ n, Reads (Reader.value isConst (n + 1)) [w] v Anything) : v.Again isConst := by
  rw [Value.Again, words]
  refine ⟨by simp [sound], fun n deep => ?_⟩
  obtain ⟨n, rfl, -⟩ := deep_succ (List.cons_ne_nil _ _) deep
  exact reads n

theorem reads_variableName {n : Text} :
    Reads Reader.variableName [.mark '$', .name n] n Anything :=
  reads_mark fun _ => reads_name

theorem yields_variableName : Yields Reader.variableName fun n => n.isName = true :=
  yields_mark fun _ => yields_name

theorem variable_again {n : Text} (name : n.isName = true) : (Value.variable n).Again false := by
  rw [Value.Again, Value.words]
  refine ⟨by simp [name], fun m deep => ?_⟩
  obtain ⟨m, rfl, -⟩ := deep_succ (List.cons_ne_nil _ _) deep
  refine reads_current fun t same => ?_
  have kind : t.kind = .mark [.char '$'] := (Prod.mk.inj same).1
  simp only [kind, mark, if_true, Bool.false_eq_true, if_false]
  rw [if_neg (by decide), if_neg (by decide)]
  exact reads_map reads_variableName Value.variable

theorem yields_constantVariable {P : Value → Prop} : Yields Reader.constantVariable P :=
  yields_bind (yields_expect _) fun _ _ => yields_current fun _ _ =>
    yields_if (yields_fail _ _) (yields_unexpected _)

theorem named_again {isConst : Bool} {n : Text} (name : n.isName = true) :
    (Reader.namedValue n).Again isConst := by
  refine single_again (namedValue_words n) name fun m => reads_current fun t same => ?_
  obtain ⟨kind, value⟩ := Prod.mk.inj same
  simp only [kind, value]
  exact reads_advanced (reads_pure _)

/-- A value is read again from its words, with any bound that is not less than their number. -/
theorem yields_value (isConst : Bool) (n : Nat) :
    Yields (Reader.value isConst n) (Value.Again isConst) := by
  induction n with
  | zero => exact yields_current fun t _ => yields_unexpected t
  | succ n ih =>
      refine yields_current fun t sound => ?_
      rw [Token.word] at sound
      -- The reader of a single word looks at its kind only, so that it does the same again.
      have single {v : Value} (words : v.words = [(t.kind, t.value)])
          (reads : ∀ n, Reads (Reader.value isConst (n + 1)) [(t.kind, t.value)] v Anything) :
          Yields (Reader.advance >>= fun _ => pure v) (Value.Again isConst) :=
        yields_advanced (yields_pure (single_again words sound reads))
      cases kind : t.kind with
      | int | float | string | blockString =>
          rw [kind] at single
          refine single rfl fun m => reads_current fun u same => ?_
          obtain ⟨kind, value⟩ := Prod.mk.inj same
          simp only [kind, value]
          exact reads_advanced (reads_pure _)
      | name =>
          rw [kind] at sound
          exact yields_advanced (yields_pure (named_again sound))
      | eof => exact yields_unexpected t
      | mark text =>
          -- Parts are read with a smaller bound, where the induction says that they come again.
          simp only
          refine yields_if ?_ (yields_if ?_ (yields_if ?_ (yields_unexpected t)))
          · exact yields_bind (yields_any ih _ _) fun vs again => yields_pure (list_again again)
          · exact yields_bind (yields_any (yields_entry ih) _ _) fun es again =>
              yields_pure (object_again again)
          · cases isConst with
            | true => exact yields_constantVariable
            | false =>
                exact yields_bind yields_variableName fun n name => yields_pure (variable_again name)

/-! ## Directives -/

theorem length_optionally (opening close : Char) (ws : List Word) :
    ws.length ≤ (optionally opening close ws).length := by
  rw [optionally]
  split
  next empty => simp [empty]
  next =>
    simp only [enclosed, List.length_cons, List.length_append]
    omega

theorem yields_arguments (isConst : Bool) : Yields (Reader.arguments isConst) fun args =>
    Rereads (Reader.arguments isConst) (optionally '(' ')' (entryWords args)) args (Avoids ['(']) := by
  refine yields_bind yields_bound fun n _ =>
    yields_mono (yields_optionalMany (yields_entry (yields_value isConst n)) _ _) fun args again => ?_
  refine ⟨sound_optionally.mpr (sound_entries again), reads_bound fun m long => ?_⟩
  have short := length_optionally '(' ')' (entryWords args)
  have each := reads_entries again (Nat.le_trans short (Nat.le_of_lt long))
  rw [entryWords_eq]
  exact reads_mono (reads_optionalMany List.not_mem_nil each fun e _ => entry_startsOutside e)
    fun _ next _ => next

theorem yields_directive (isConst : Bool) : Yields (Reader.directive isConst) fun d =>
    Rereads (Reader.directive isConst) d.words d (Avoids ['(']) := by
  refine yields_mark fun _ => yields_bind yields_name fun n name =>
    yields_bind (yields_arguments isConst) fun args again => yields_pure ⟨?_, ?_⟩
  · simp [Directive.words, name, again.sound]
  · exact reads_mark fun _ => reads_named (reads_map again.reads _)

/-- What must not come after directives. -/
abbrev EndsDirectives : List Word → Prop :=
  Avoids ['@', '(']

theorem yields_directives (isConst : Bool) : Yields (Reader.directives isConst) fun ds =>
    Rereads (Reader.directives isConst) (directiveWords ds) ds EndsDirectives := by
  refine yields_bind yields_bound fun n _ =>
    yields_mono (yields_itemsWhile (yields_directive isConst) _ n) fun ds again => ?_
  refine ⟨sound_flatMap.mpr fun d among => (again d among).sound, reads_bound fun m long => ?_⟩
  have short := length_le_flatMap ds Directive.words fun _ _ => List.cons_ne_nil _ _
  exact reads_itemsWhile (Nat.le_trans short (Nat.le_of_lt long)) (by decide)
    (fun d among => (again d among).reads) fun d _ => ⟨_, rfl⟩

/-- Directives are followed by what may follow them, or by more of them. -/
theorem avoids_directives {marks : List Char} {ds : List Directive} {rest : List Word}
    (other : '@' ∉ marks) (next : Avoids marks rest) : Avoids marks (directiveWords ds ++ rest) := by
  cases ds with
  | nil => exact next
  | cons d ds => exact .mark other

/-! ## Types -/

/-- Is the type read again, wherever it may be nested as deep? -/
def TypeRef.Again (t : TypeRef) : Prop :=
  Sound t.words ∧ ∀ n, t.words.length ≤ n → Reads (Reader.typeRef n) t.words t (Avoids ['!'])

/-- A type, given the type that a mark may follow. -/
def markedType (inner : TypeRef) : Reader TypeRef := do
  if ← Reader.takes (mark '!') then return .nonNull inner else return inner

theorem yields_markedType (inner : TypeRef) (sound : Sound inner.words)
    (reads : ∀ n, inner.words.length ≤ n → ∀ us t Q, Reads (markedType inner) us t Q →
      Reads (Reader.typeRef n) (inner.words ++ us) t Q) :
    Yields (markedType inner) TypeRef.Again := by
  refine yields_bind (yields_takes _) fun marked _ => yields_if ?_ ?_
  · refine yields_pure ⟨by simp [TypeRef.words, sound], fun n deep => ?_⟩
    have short : inner.words.length ≤ n := by
      rw [TypeRef.words, List.length_append] at deep
      omega
    exact reads n short _ _ _ (reads_takes (reads_pure _))
  · refine yields_pure ⟨sound, fun n deep => ?_⟩
    have all := reads n deep [] inner (Avoids ['!'])
      (reads_skips (reads_pure _) fun _ next => next)
    rwa [List.append_nil] at all

theorem yields_typeRef (n : Nat) : Yields (Reader.typeRef n) TypeRef.Again := by
  induction n with
  | zero => exact yields_current fun t _ => yields_unexpected t
  | succ n ih =>
      refine yields_bind (yields_takes _) fun opened _ => ?_
      cases opened with
      | true =>
          refine yields_bind ih fun inner again => yields_mark fun _ =>
            yields_markedType (.list inner) ?_ ?_
          · simp [TypeRef.words, again.1]
          · intro m deep us t Q marked
            obtain ⟨m, rfl, deep⟩ := deep_succ (List.cons_ne_nil _ _) deep
            have short : inner.words.length ≤ m := by
              simp only [TypeRef.words, enclosed, List.length_cons, List.length_append] at deep
              omega
            have closed : Reads (Reader.expect (mark ']') >>= fun _ => markedType (.list inner))
                (.mark ']' :: us) t Q := reads_mark fun _ => marked
            have text : (TypeRef.list inner).words ++ us =
                .mark '[' :: (inner.words ++ .mark ']' :: us) := by
              simp [TypeRef.words, enclosed]
            rw [text]
            exact reads_takes (reads_bind (again.2 m short) closed fun _ _ => .mark (by decide))
      | false =>
          refine yields_bind yields_name fun n name => yields_markedType (.named n) ?_ ?_
          · simp [TypeRef.words, name]
          · intro m deep us t Q marked
            obtain ⟨m, rfl, -⟩ := deep_succ (List.cons_ne_nil _ _) deep
            exact reads_skips (reads_named marked) fun _ _ => .name

theorem yields_type : Yields Reader.type fun t => Rereads Reader.type t.words t (Avoids ['!']) :=
  yields_bind yields_bound fun n _ => yields_mono (yields_typeRef n) fun _ again =>
    ⟨again.1, reads_bound fun m long => again.2 m (Nat.le_of_lt long)⟩

theorem yields_defaultValue : Yields Reader.defaultValue fun v =>
    Rereads Reader.defaultValue (defaultWords v) v (Avoids ['=']) := by
  refine yields_bind (yields_takes _) fun announced _ => yields_if ?_ ?_
  · refine yields_bind yields_bound fun n _ => yields_bind (yields_value true n) fun v again =>
      yields_pure ⟨by simp [defaultWords, again.1], ?_⟩
    exact reads_anywhere (reads_takes (reads_bound fun m long =>
      reads_map (again.2 m (Nat.le_of_lt long)) some))
  · exact yields_pure ⟨sound_nil, reads_skips (reads_pure _) fun _ next => next⟩

/-! ## Descriptions -/

/-- What comes next is no string. -/
def NoString (rest : List Word) : Prop :=
  ∀ w ∈ rest.head?, w.1 ≠ .string ∧ w.1 ≠ .blockString

theorem noString_name {n : Text} {rest : List Word} : NoString (.name n :: rest) := by
  rintro w (rfl | ⟨⟩)
  exact ⟨nofun, nofun⟩

theorem noString_mark {c : Char} {rest : List Word} : NoString (.mark c :: rest) := by
  rintro w (rfl | ⟨⟩)
  exact ⟨nofun, nofun⟩

theorem yields_description : Yields Reader.description fun desc =>
    Rereads Reader.description (descriptionWords desc) desc NoString := by
  refine yields_current fun t sound => ?_
  by_cases isString : Reader.isString t = true
  · rw [if_pos isString]
    refine yields_advanced (yields_pure ?_)
    have word : Word.string (t.kind = .blockString) t.value = t.word := by
      simp only [Reader.isString, Bool.or_eq_true, decide_eq_true_eq] at isString
      obtain kind | kind := isString <;> simp [Word.string, Token.word, kind]
    refine ⟨by simp [descriptionWords, word, sound], ?_⟩
    rw [descriptionWords, word]
    refine reads_current fun u same => ?_
    obtain ⟨kind, value⟩ := Prod.mk.inj same
    have again : Reader.isString u = true := by rwa [Reader.isString, kind]
    rw [if_pos again, kind, value]
    exact reads_advanced (reads_pure _)
  · rw [if_neg isString]
    refine yields_pure ⟨sound_nil, reads_look fun u rest first next => ?_⟩
    obtain ⟨noString, noBlock⟩ := next u.word first
    have other : ¬Reader.isString u = true := by
      simp only [Reader.isString, Bool.or_eq_true, decide_eq_true_eq]
      exact not_or.mpr ⟨noString, noBlock⟩
    rw [if_neg other]
    exact reads_pure _

theorem description_startsOutside {marks : List Char} {ws : List Word} (h : StartsOutside marks ws)
    (desc : Option Description) : StartsOutside marks (descriptionWords desc ++ ws) := by
  cases desc with
  | none => exact h
  | some d =>
      refine startsOutside_cons fun c _ same => ?_
      cases block : d.block <;> simp [Word.string, block, mark] at same

/-! ## Items -/

section

variable {item : Reader α} {words : α → List Word} {marks : List Char} {opening close : Char}

/-- Braces after items that are not there would be theirs. -/
theorem yields_bracketed (items : Yields item fun x => Rereads item (words x) x (Avoids marks))
    (closes : close ∉ marks) (begun : ∀ x, StartsOutside (close :: marks) (words x)) :
    Yields (Reader.optionalMany opening close item) fun xs =>
      Rereads (Reader.optionalMany opening close item)
        (optionally opening close (xs.flatMap words)) xs fun rest => xs = [] → Avoids [opening] rest :=
  yields_mono (yields_optionalMany items opening close) fun _ again =>
    ⟨sound_optionally.mpr (sound_flatMap.mpr fun x among => (again x among).sound),
      reads_optionalMany closes (fun x among => (again x among).reads) fun x _ => begun x⟩

theorem yields_optionally (items : Yields item fun x => Rereads item (words x) x (Avoids marks))
    (closes : close ∉ marks) (begun : ∀ x, StartsOutside (close :: marks) (words x)) :
    Yields (Reader.optionalMany opening close item) fun xs =>
      Rereads (Reader.optionalMany opening close item)
        (optionally opening close (xs.flatMap words)) xs (Avoids [opening]) :=
  yields_mono (yields_bracketed items closes begun) fun _ again =>
    ⟨again.sound, reads_mono again.reads fun _ next _ => next⟩

end

/-- What must not come after the definition of something with a type. -/
abbrev EndsTyped : List Word → Prop :=
  Avoids ['!', '=', '@', '(']

theorem reads_typed {t : TypeRef} {v : Option Value} {ds : List Directive}
    (type : Rereads Reader.type t.words t (Avoids ['!']))
    (default : Rereads Reader.defaultValue (defaultWords v) v (Avoids ['=']))
    (directives : Rereads (Reader.directives true) (directiveWords ds) ds EndsDirectives)
    (make : TypeRef → Option Value → List Directive → α) :
    Reads (do
        let t ← Reader.type
        let v ← Reader.defaultValue
        return make t v (← Reader.directives true))
      (t.words ++ (defaultWords v ++ directiveWords ds)) (make t v ds) EndsTyped := by
  have ends : ∀ rest, EndsTyped rest → EndsDirectives rest := fun _ next => next.mono (by decide)
  refine reads_bind type.reads (reads_bind default.reads
    (reads_map (reads_mono directives.reads ends) (make t v)) fun rest next => ?_) fun rest next => ?_
  · exact avoids_directives (by decide) (next.mono (by decide))
  · have after : Avoids ['!'] (directiveWords ds ++ rest) :=
      avoids_directives (by decide) (next.mono (by decide))
    rw [List.append_assoc]
    cases v with
    | none => exact after
    | some v => exact .mark (by decide)

theorem yields_inputValue : Yields Reader.inputValue fun v =>
    Rereads Reader.inputValue v.words v EndsTyped := by
  refine yields_bind yields_description fun desc described => yields_bind yields_name fun n name =>
    yields_mark fun _ => yields_bind yields_type fun t type =>
      yields_bind yields_defaultValue fun v default =>
        yields_bind (yields_directives true) fun ds directives => yields_pure ⟨?_, ?_⟩
  · simp [InputValue.words, described.sound, name, type.sound, default.sound, directives.sound]
  · exact reads_bind described.reads (reads_named (reads_mark fun _ =>
      reads_typed type default directives _)) fun _ _ => noString_name

theorem inputValue_startsOutside {marks : List Char} (v : InputValue) : StartsOutside marks v.words :=
  description_startsOutside startsOutside_name v.description

theorem yields_inputValues : Yields (Reader.optionalMany '(' ')' Reader.inputValue) fun vs =>
    Rereads (Reader.optionalMany '(' ')' Reader.inputValue)
      (optionally '(' ')' (vs.flatMap InputValue.words)) vs (Avoids ['(']) :=
  yields_optionally yields_inputValue (by decide) inputValue_startsOutside

end GraphQL

end ApprovedOps
