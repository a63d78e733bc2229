import ApprovedOps.Proofs.GraphQL.Rereading.Values
import Mathlib.Data.List.Forall2

/-! # The words of laid out values and members

The normal layout of a part of a document spells its words. Line breaks and spaces go between words
only, or inside block strings, where indentation does not count.
-/

namespace ApprovedOps

namespace GraphQL

variable {s t rest : Text} {ws us : List Word}

/-! ## Gaps -/

/-- Is the text white space? -/
def IsGap (gap : Text) : Prop :=
  ∀ p ∈ gap, Lexed.isIgnored p = true

instance (gap : Text) : Decidable (IsGap gap) :=
  inferInstanceAs (Decidable (∀ p ∈ gap, Lexed.isIgnored p = true))

theorem isIgnored_apart {p : CodePoint} (h : Lexed.isIgnored p = true) :
    p.isNameContinue = false ∧ p ≠ .char '.' ∧ p ≠ .char '"' := by
  simp only [Lexed.isIgnored, Bool.or_eq_true, decide_eq_true_eq] at h
  obtain ((((rfl | rfl) | rfl) | rfl) | rfl) | rfl := h <;> decide

theorem apart_cons {p : CodePoint}
    (h : p.isNameContinue = false ∧ p ≠ .char '.' ∧ p ≠ .char '"') : Apart (p :: t) := by
  rintro c (rfl | ⟨⟩)
  exact h

theorem apart_nil : Apart [] := by
  rintro c ⟨⟩

theorem apart_gap {gap : Text} (h : IsGap gap) : Apart gap := by
  cases gap with
  | nil => exact apart_nil
  | cons p gap => exact apart_cons (isIgnored_apart (h p List.mem_cons_self))

theorem apart_mark {c : Char} (h : Lexed.isMark (.char c) = true) : Apart (.char c :: t) := by
  have all := of_isMark (P := fun c => (CodePoint.char c).isNameContinue = false ∧
    CodePoint.char c ≠ .char '.' ∧ CodePoint.char c ≠ .char '"') (by decide) h
  exact apart_cons (of_decide_eq_true all)

theorem apart_space (u : Text) : Apart (Text.ofString " " ++ u) :=
  apart_cons (p := .char ' ') (by decide)

theorem apart_paren (u : Text) : Apart (Text.ofString "(" ++ u) :=
  apart_cons (p := .char '(') (by decide)

theorem apart_wrap {before after : String} (h : ∀ u, Apart (Text.ofString before ++ u)) :
    Apart (Layout.wrap before t after) := by
  rw [Layout.wrap]
  split
  next => exact apart_nil
  next =>
    rw [List.append_assoc]
    exact h _

theorem Spelled.space (first : Spelled s ws) (second : Spelled t us) :
    Spelled (s ++ .char ' ' :: t) (ws ++ us) :=
  first.append (.gap (by decide) second) (apart_space t)

theorem Spelled.colon (first : Spelled s ws) (second : Spelled t us) :
    Spelled (s ++ .char ':' :: .char ' ' :: t) (ws ++ .mark ':' :: us) :=
  first.append (.mark (by decide) (.gap (by decide) second)) (apart_mark (by decide))

theorem Spelled.nil_words (h : Spelled [] ws) : ws = [] := by
  generalize text : ([] : Text) = t at h
  cases h with
  | nil => rfl
  | gap | mark | dots => cases text
  | word lexeme =>
      have empty := (List.append_eq_nil_iff.mp text.symm).1
      exact absurd (by rw [empty]; rfl) (lexeme 0).1

/-- Does the text spell the words, and is it not blank unless it is empty? -/
structure Laid (t : Text) (ws : List Word) : Prop where
  spelled : Spelled t ws
  blank : ws = [] → t = []

theorem laid_nil : Laid [] [] :=
  ⟨.nil, fun _ => rfl⟩

theorem Spelled.laid (h : Spelled t ws) (some_ : ws ≠ []) : Laid t ws :=
  ⟨h, fun empty => absurd empty some_⟩

theorem spelled_word {w : Word} (lexeme : ∀ n, Lexes (shift n t) w) : Spelled t [w] := by
  have one := Spelled.word lexeme apart_nil .nil
  rwa [List.append_nil] at one

theorem spelled_name {n : Text} (name : n.isName = true) : Spelled n [.name n] := by
  refine spelled_word ((name_lexes name).anywhere ?_)
  exact Text.isName_notMem name (by decide)

/-! ## Joining -/

theorem join_cons (sep : String) (t : Text) (ts : List Text) :
    Layout.join sep (t :: ts) = if t = [] then Layout.join sep ts
      else if Layout.join sep ts = [] then t else t ++ (Text.ofString sep ++ Layout.join sep ts) := by
  by_cases empty : t = []
  · rw [if_pos empty, Layout.join, List.filter_cons_of_neg (by simpa using empty)]
    rfl
  · rw [if_neg empty, Layout.join, List.filter_cons_of_pos (by simpa using empty), Layout.join]
    cases kept : ts.filter (· ≠ []) with
    | nil => rfl
    | cons u us =>
        have solid : u ≠ [] := by
          have among : u ∈ ts.filter (· ≠ []) := kept ▸ List.mem_cons_self
          simpa using (List.mem_filter.mp among).2
        have later : Text.join (Text.ofString sep) (u :: us) ≠ [] := by
          cases us <;> simp [Text.join, solid]
        rw [if_neg later, Text.join, List.append_assoc]
        exact List.cons_ne_nil u us

/-- Is the text white space that keeps words apart? -/
abbrev IsSeparator (sep : String) : Prop :=
  Text.ofString sep ≠ [] ∧ IsGap sep

/-- Texts with white space between each two spell their words one after the other. -/
theorem join_laid (sep : String) (separates : IsSeparator sep) {ts : List Text}
    {wss : List (List Word)} (h : List.Forall₂ Laid ts wss) :
    Laid (Layout.join sep ts) wss.flatten := by
  obtain ⟨some_, gap⟩ := separates
  induction h with
  | nil => exact laid_nil
  | @cons t ws ts wss here later ih =>
      rw [join_cons, List.flatten_cons]
      split
      next empty =>
        subst empty
        rw [here.spelled.nil_words]
        exact ih
      next solid =>
        split
        next empty =>
          have none := ih.spelled
          rw [empty] at none
          rw [none.nil_words, List.append_nil]
          exact here
        next =>
          refine ⟨here.spelled.append (ih.spelled.gaps gap) ?_, fun empty => ?_⟩
          · obtain ⟨p, r, text⟩ := List.exists_cons_of_ne_nil some_
            rw [text]
            exact apart_cons (isIgnored_apart (gap p (text ▸ List.mem_cons_self)))
          · exact absurd (here.blank (List.append_eq_nil_iff.mp empty).1) solid

theorem forall₂_map {α : Type} {f : α → Text} {words : α → List Word} {xs : List α}
    (h : ∀ x ∈ xs, Laid (f x) (words x)) : List.Forall₂ Laid (xs.map f) (xs.map words) := by
  induction xs with
  | nil => exact .nil
  | cons x xs ih =>
      obtain ⟨here, later⟩ := List.forall_mem_cons.mp h
      exact .cons here (ih later)

/-! ## Between marks -/

/-- A text with something around it, or nothing if there is nothing to put it around. -/
theorem wrap_laid {before after : String} (h : Laid t ws) (some_ : us ≠ [])
    (around : Spelled (Text.ofString before ++ t ++ Text.ofString after) us) :
    Laid (Layout.wrap before t after) (if ws = [] then [] else us) := by
  rw [Layout.wrap]
  split
  next empty =>
    subst empty
    rw [h.spelled.nil_words]
    exact laid_nil
  next solid =>
    rw [if_neg fun empty => solid (h.blank empty)]
    exact around.laid some_

/-- A text after something, or nothing if there is nothing to put it after. -/
theorem front_laid (before : String) (h : Laid t ws) (some_ : us ≠ [])
    (front : Spelled (Text.ofString before ++ t) us) :
    Laid (Layout.wrap before t "") (if ws = [] then [] else us) := by
  have text : Text.ofString before ++ t ++ Text.ofString "" = Text.ofString before ++ t :=
    List.append_nil _
  exact wrap_laid h some_ (by rwa [text])

/-- A text with white space around it. -/
theorem wrap_gap {before after : String} (h : Laid t ws) (front : IsGap before) (back : IsGap after) :
    Laid (Layout.wrap before t after) ws := by
  rw [Layout.wrap]
  split
  next empty =>
    subst empty
    rw [h.spelled.nil_words]
    exact laid_nil
  next solid =>
    refine ⟨?_, fun empty => absurd (h.blank empty) solid⟩
    have around := (h.spelled.gaps front).append (Spelled.nil.gaps back)
      (by rw [List.append_nil]; exact apart_gap back)
    rwa [List.append_nil, List.append_nil] at around

theorem indent_laid (h : Laid t ws) : Laid (Layout.indent t) ws := by
  have shifted : Laid (shift 2 t) ws := by
    refine ⟨h.spelled.shift 2, fun empty => ?_⟩
    rw [h.blank empty]
    rfl
  exact wrap_gap shifted (by decide) (by decide)

/-- Are these two marks? -/
abbrev AreMarks (opening close : Char) : Prop :=
  Lexed.isMark (.char opening) = true ∧ Lexed.isMark (.char close) = true

theorem spelled_enclosed {opening close : Char} (front back : Text) (h : Spelled t ws)
    (marks : AreMarks opening close) (gaps : IsGap front ∧ IsGap back) :
    Spelled (.char opening :: (front ++ (t ++ (back ++ [.char close]))))
      (enclosed opening close ws) := by
  refine .mark marks.1 (Spelled.gaps gaps.1 (h.append (Spelled.gaps gaps.2 (.mark marks.2 .nil)) ?_))
  exact apart_append (apart_gap gaps.2) (apart_mark marks.2)

theorem optionally_laid {opening close : Char} {before after : String} (front back : Text)
    (h : Laid t ws) (marks : AreMarks opening close)
    (begins : Text.ofString before = .char opening :: front)
    (ends : Text.ofString after = back ++ [.char close]) (gaps : IsGap front ∧ IsGap back) :
    Laid (Layout.wrap before t after) (optionally opening close ws) := by
  refine wrap_laid h (List.cons_ne_nil _ _) ?_
  rw [begins, ends, List.append_assoc, List.cons_append]
  exact spelled_enclosed front back h.spelled marks gaps

/-! ## Values -/

theorem spelled_string {isBlock : Bool} {content : Text}
    (sound : (Word.string isBlock content).Sound) :
    Spelled (Layout.string isBlock content) [.string isBlock content] := by
  cases isBlock with
  | false => exact spelled_word (string_lexes sound)
  | true => exact spelled_word (BlockString.render_lexes sound.1 sound.2)

theorem spelled_number (isFloat : Bool) {d : Text} (number : IsNumber isFloat d) :
    Spelled d [(if isFloat then .float else .int, d)] :=
  spelled_word ((number_lexes number).anywhere (number_flat number))

theorem spelled_spread {opening close : Char} {open_ close_ : String} {line : Text}
    {parts : List Text} {wss : List (List Word)} (h : List.Forall₂ Laid parts wss)
    (marks : AreMarks opening close)
    (begins : Text.ofString open_ = [.char opening]) (ends : Text.ofString close_ = [.char close])
    (inline : Spelled line (enclosed opening close wss.flatten)) :
    Spelled (Layout.spread line open_ close_ parts) (enclosed opening close wss.flatten) := by
  rw [Layout.spread]
  split
  next =>
    rw [begins, ends]
    exact spelled_enclosed (Text.ofString "\n") (Text.ofString "\n")
      (indent_laid (join_laid "\n" (by decide) h)).spelled marks (by decide)
  next => exact inline

mutual

theorem value_spelled (v : Value) (sound : Sound v.words) : Spelled (Layout.value v) v.words := by
  cases v with
  | «variable» n => exact .mark (by decide) (spelled_name (by simpa [Value.words] using sound))
  | int d => exact spelled_number false (sound_cons.mp sound).1
  | float d => exact spelled_number true (sound_cons.mp sound).1
  | string isBlock content => exact spelled_string (sound_cons.mp sound).1
  | boolean b => cases b <;> exact spelled_name (by decide)
  | null => exact spelled_name (by decide)
  | enum n => exact spelled_name (n := n) (by simpa [Value.words] using sound)
  | list items =>
      rw [Value.words, sound_enclosed] at sound
      have parts := values_laid items sound
      rw [Value.words, valueWords_eq, List.flatMap_def, Layout.value]
      exact spelled_spread parts (by decide) rfl rfl (spelled_enclosed [] []
        (join_laid ", " (by decide) parts).spelled (by decide) (by decide))
  | object fields =>
      rw [Value.words, sound_enclosed] at sound
      have parts := entries_laid fields sound
      rw [Value.words, entryWords_eq, List.flatMap_def, Layout.value]
      exact spelled_spread parts (by decide) rfl rfl (spelled_enclosed (Text.ofString " ")
        (Text.ofString " ") (join_laid ", " (by decide) parts).spelled (by decide) (by decide))

theorem values_laid (vs : List Value) (sound : Sound (valueWords vs)) :
    List.Forall₂ Laid (Layout.values vs) (vs.map Value.words) := by
  cases vs with
  | nil => exact .nil
  | cons v vs =>
      obtain ⟨here, later⟩ := sound_append.mp sound
      exact .cons ((value_spelled v here).laid (value_startsOutside v).1) (values_laid vs later)

theorem entries_laid (es : List (Text × Value)) (sound : Sound (entryWords es)) :
    List.Forall₂ Laid (Layout.entries es) (es.map pairWords) := by
  cases es with
  | nil => exact .nil
  | cons e es =>
      obtain ⟨n, v⟩ := e
      simp only [entryWords, sound_cons, sound_append] at sound
      obtain ⟨name, -, here, later⟩ := sound
      refine .cons (Spelled.laid ?_ (List.cons_ne_nil _ _)) (entries_laid es later)
      have text : Text.concat [n, Text.ofString ": ", Layout.value v] =
          n ++ .char ':' :: .char ' ' :: Layout.value v := by
        simp [Text.concat, Text.ofString]
      rw [text]
      exact (spelled_name name).colon (value_spelled v here)

end

theorem join_entries {es : List (Text × Value)} (sep : String) (separates : IsSeparator sep)
    (sound : Sound (entryWords es)) :
    Laid (Layout.join sep (Layout.entries es)) (entryWords es) := by
  have parts := join_laid sep separates (entries_laid es sound)
  rwa [← List.flatMap_def, ← entryWords_eq] at parts

/-! ## Directives and types -/

theorem arguments_laid {args : List Argument} (sound : Sound (entryWords args)) :
    Laid (Layout.wrap "(" (Layout.join ", " (Layout.entries args)) ")")
      (optionally '(' ')' (entryWords args)) :=
  optionally_laid [] [] (join_entries ", " (by decide) sound) (by decide) rfl rfl (by decide)

theorem directive_spelled {d : Directive} (sound : Sound d.words) :
    Spelled (Layout.directive d) d.words := by
  simp only [Directive.words, sound_cons, name_sound, sound_optionally] at sound
  obtain ⟨-, name, args⟩ := sound
  have text : Layout.directive d = .char '@' :: (d.name ++
      Layout.wrap "(" (Layout.join ", " (Layout.entries d.arguments)) ")") := by
    simp [Layout.directive, Text.concat, Text.ofString]
  rw [text]
  exact .mark (by decide)
    ((spelled_name name).append (arguments_laid args).spelled (apart_wrap apart_paren))

theorem directives_laid {ds : List Directive} (sound : Sound (directiveWords ds)) :
    Laid (Layout.directives ds) (directiveWords ds) := by
  rw [directiveWords, sound_flatMap] at sound
  rw [directiveWords, List.flatMap_def]
  exact join_laid " " (by decide) (forall₂_map fun d among =>
    (directive_spelled (sound d among)).laid (List.cons_ne_nil _ _))

theorem spaced_laid (h : Laid t ws) : Laid (Layout.wrap " " t "") ws :=
  wrap_gap h (by decide) (by decide)

theorem typeRef_spelled (t : TypeRef) (sound : Sound t.words) :
    Spelled (Layout.typeRef t) t.words := by
  induction t with
  | named n => exact spelled_name (sound_cons.mp sound).1
  | list inner ih =>
      rw [TypeRef.words, sound_enclosed] at sound
      exact spelled_enclosed [] [] (ih sound) (by decide) (by decide)
  | nonNull inner ih =>
      rw [TypeRef.words, sound_append] at sound
      exact (ih sound.1).append (.mark (c := '!') (by decide) .nil) (apart_mark (by decide))

/-! ## Descriptions and default values -/

theorem described_spelled {desc : Option Description} (sound : Sound (descriptionWords desc))
    (h : Spelled t ws) :
    Spelled (Layout.description desc ++ t) (descriptionWords desc ++ ws) := by
  cases desc with
  | none => exact h
  | some desc =>
      have string := spelled_string (sound_cons.mp sound).1
      have solid : Layout.string desc.block desc.content ≠ [] := by
        intro empty
        rw [empty] at string
        cases string.nil_words
      have text : Layout.description (some desc) =
          Layout.string desc.block desc.content ++ [.char '\n'] := by
        rw [Layout.description, Layout.wrap, if_neg solid]
        rfl
      rw [text, List.append_assoc]
      exact string.append (.gap (by decide) h) (apart_cons (by decide))

theorem default_laid {v : Option Value} (sound : Sound (defaultWords v)) :
    Laid (Layout.default v) (defaultWords v) := by
  cases v with
  | none => exact laid_nil
  | some v =>
      have value := (value_spelled v (sound_cons.mp sound).2).laid (value_startsOutside v).1
      have laid := front_laid "= " value (List.cons_ne_nil _ _)
        (.mark (by decide) (.gap (by decide) value.spelled))
      rwa [if_neg (value_startsOutside v).1] at laid

theorem Spelled.wrapped (first : Spelled s ws) (second : Laid t us) :
    Spelled (s ++ Layout.wrap " " t "") (ws ++ us) :=
  first.append (spaced_laid second).spelled (apart_wrap apart_space)

theorem description_ne_nil (desc : Option Description) (some_ : ws ≠ []) :
    descriptionWords desc ++ ws ≠ [] :=
  List.append_ne_nil_of_right_ne_nil _ some_

theorem variableDefinition_laid (v : VariableDefinition) (sound : Sound v.words) :
    Laid (Layout.variableDefinition v) v.words := by
  simp only [VariableDefinition.words, sound_append, sound_cons, name_sound] at sound
  obtain ⟨described, -, name, -, type, default, directives⟩ := sound
  have text : Layout.variableDefinition v = Layout.description v.description ++
      .char '$' :: (v.name ++ .char ':' :: .char ' ' ::
        (Layout.typeRef v.type ++ Layout.wrap " " (Layout.default v.default) "" ++
          Layout.wrap " " (Layout.directives v.directives) "")) := by
    simp [Layout.variableDefinition, Text.concat, Text.ofString]
  have typed := ((typeRef_spelled v.type type).wrapped (default_laid default)).wrapped
    (directives_laid directives)
  rw [List.append_assoc v.type.words] at typed
  rw [text]
  exact (described_spelled described
    (.mark (c := '$') (by decide) ((spelled_name name).colon typed))).laid
    (description_ne_nil v.description (List.cons_ne_nil _ _))

theorem inputValue_laid (v : InputValue) (sound : Sound v.words) :
    Laid (Layout.inputValue v) v.words := by
  simp only [InputValue.words, sound_append, sound_cons, name_sound] at sound
  obtain ⟨described, name, -, type, default, directives⟩ := sound
  have head : Laid (Text.concat [v.name, Text.ofString ": ", Layout.typeRef v.type])
      (.name v.name :: .mark ':' :: v.type.words) := by
    have text : Text.concat [v.name, Text.ofString ": ", Layout.typeRef v.type] =
        v.name ++ .char ':' :: .char ' ' :: Layout.typeRef v.type := by
      simp [Text.concat, Text.ofString]
    rw [text]
    exact ((spelled_name name).colon (typeRef_spelled v.type type)).laid (List.cons_ne_nil _ _)
  have parts := join_laid " " (by decide)
    (.cons head (.cons (default_laid default) (.cons (directives_laid directives) .nil)))
  simp only [List.flatten_cons, List.flatten_nil, List.append_nil] at parts
  exact (described_spelled described parts.spelled).laid
    (description_ne_nil v.description (List.cons_ne_nil _ _))

/-! ## Definitions in lists -/

section

variable {α : Type} {f : α → Text} {words : α → List Word} {xs : List α}

theorem forall₂_sound (h : ∀ x, Sound (words x) → Laid (f x) (words x))
    (sound : Sound (xs.flatMap words)) : List.Forall₂ Laid (xs.map f) (xs.map words) :=
  forall₂_map fun x among => h x (sound_flatMap.mp sound x among)

theorem definitionList_laid (h : ∀ x, Sound (words x) → Laid (f x) (words x))
    (sound : Sound (xs.flatMap words)) :
    Laid (Layout.definitionList (xs.map f)) (optionally '(' ')' (xs.flatMap words)) := by
  have parts := forall₂_sound h sound
  rw [Layout.definitionList, List.flatMap_def]
  split
  · exact optionally_laid (Text.ofString "\n") (Text.ofString "\n")
      (indent_laid (join_laid "\n" (by decide) parts)) (by decide) rfl rfl (by decide)
  · exact optionally_laid [] [] (join_laid ", " (by decide) parts) (by decide) rfl rfl (by decide)

theorem block_laid {parts : List Text} {wss : List (List Word)} (h : List.Forall₂ Laid parts wss) :
    Laid (Layout.block parts) (optionally '\x7b' '\x7d' wss.flatten) :=
  optionally_laid (Text.ofString "\n") (Text.ofString "\n")
    (indent_laid (join_laid "\n" (by decide) h)) (by decide) rfl rfl (by decide)

theorem members_laid (h : ∀ x, Sound (words x) → Laid (f x) (words x))
    (sound : Sound (xs.flatMap words)) :
    Laid (Layout.block (xs.map f)) (optionally '\x7b' '\x7d' (xs.flatMap words)) := by
  rw [List.flatMap_def]
  exact block_laid (forall₂_sound h sound)

end

theorem apart_definitionList (parts : List Text) : Apart (Layout.definitionList parts) := by
  rw [Layout.definitionList]
  split
  · exact apart_wrap fun u => apart_cons (p := .char '(') (by decide)
  · exact apart_wrap apart_paren

theorem fieldDefinition_laid (f : FieldDefinition) (sound : Sound f.words) :
    Laid (Layout.fieldDefinition f) f.words := by
  simp only [FieldDefinition.words, sound_append, sound_cons, name_sound, sound_optionally] at sound
  obtain ⟨described, name, args, -, type, directives⟩ := sound
  have text : Layout.fieldDefinition f = Layout.description f.description ++ (f.name ++
      (Layout.definitionList (f.arguments.map Layout.inputValue) ++ .char ':' :: .char ' ' ::
        (Layout.typeRef f.type ++ Layout.wrap " " (Layout.directives f.directives) ""))) := by
    simp [Layout.fieldDefinition, Text.concat, Text.ofString]
  have list := definitionList_laid inputValue_laid args
  have typed := (typeRef_spelled f.type type).wrapped (directives_laid directives)
  have field := (spelled_name name).append (list.spelled.colon typed)
    (apart_append (apart_definitionList _) (apart_mark (by decide)))
  rw [text]
  exact (described_spelled described field).laid
    (description_ne_nil f.description (List.cons_ne_nil _ _))

theorem enumValue_laid (v : EnumValue) (sound : Sound v.words) :
    Laid (Layout.enumValue v) v.words := by
  simp only [EnumValue.words, sound_append, sound_cons, name_sound] at sound
  obtain ⟨described, name, directives⟩ := sound
  have parts := join_laid " " (by decide)
    (.cons ((spelled_name name).laid (List.cons_ne_nil _ _))
      (.cons (directives_laid directives) .nil))
  simp only [List.flatten_cons, List.flatten_nil, List.append_nil] at parts
  exact (described_spelled described parts.spelled).laid
    (description_ne_nil v.description (List.cons_ne_nil _ _))

theorem operationType_laid (t : OperationKind × Text) (sound : Sound (typeWords t)) :
    Laid (Layout.operationType t) (typeWords t) := by
  simp only [typeWords, sound_cons, name_sound] at sound
  have text : Layout.operationType t =
      Layout.operationKind t.1 ++ .char ':' :: .char ' ' :: t.2 := by
    simp [Layout.operationType, Text.concat, Text.ofString]
  rw [text]
  exact ((spelled_name sound.1).colon (spelled_name sound.2.2.1)).laid (List.cons_ne_nil _ _)

end GraphQL

end ApprovedOps
