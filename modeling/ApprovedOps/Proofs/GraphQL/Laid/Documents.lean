import ApprovedOps.Proofs.GraphQL.Rereading.Documents
import ApprovedOps.Proofs.GraphQL.Laid.Values

/-! # The words of laid out documents

The normal layout of every definition spells its words, and so does that of a whole document. A query
of selections only is the one definition that is laid out in more than one way.
-/

namespace ApprovedOps

namespace GraphQL

variable {t : Text} {ws us : List Word}

/-! ## Selections -/

theorem selectionBlock_spelled {parts : List Text} {wss : List (List Word)}
    (h : List.Forall₂ Laid parts wss) (solid : ∀ ws ∈ wss, ws ≠ []) :
    Spelled (Layout.selectionBlock parts) (enclosed '\x7b' '\x7d' wss.flatten) := by
  rw [Layout.selectionBlock]
  cases h with
  | nil => exact .mark (c := '\x7b') (by decide) (.mark (c := '\x7d') (by decide) .nil)
  | @cons part ws parts wss here later =>
      have some_ : (ws :: wss).flatten ≠ [] := by
        rw [List.flatten_cons]
        exact List.append_ne_nil_of_left_ne_nil (solid ws List.mem_cons_self) _
      have block := (block_laid (.cons here later)).spelled
      rw [if_neg (List.cons_ne_nil _ _)]
      rwa [optionally, if_neg some_] at block

theorem title_spelled {label : Option Text} {n : Text} (sound : Sound (titleWords label n)) :
    Spelled (Layout.wrap "" (label.getD []) ": " ++ n) (titleWords label n) := by
  cases label with
  | none => exact spelled_name (sound_cons.mp sound).1
  | some label =>
      simp only [titleWords, sound_cons, name_sound] at sound
      obtain ⟨first, -, second, -⟩ := sound
      have text : Layout.wrap "" label ": " ++ n = label ++ .char ':' :: .char ' ' :: n := by
        simp [Layout.wrap, Text.isName_ne_nil first, Text.ofString]
      rw [Option.getD_some, text]
      exact (spelled_name first).colon (spelled_name second)

theorem title_ne_nil (label : Option Text) (n : Text) : titleWords label n ≠ [] := by
  cases label <;> exact List.cons_ne_nil _ _

theorem call_spelled {title : Text} {args : List Argument} (h : Spelled title ws)
    (sound : Sound (entryWords args)) :
    Spelled (Layout.call title args) (ws ++ optionally '(' ')' (entryWords args)) := by
  have broken : Laid
      (Layout.wrap "(\n" (Layout.indent (Layout.join "\n" (Layout.entries args))) "\n)")
      (optionally '(' ')' (entryWords args)) :=
    optionally_laid (Text.ofString "\n") (Text.ofString "\n")
      (indent_laid (join_entries "\n" (by decide) sound)) (by decide) rfl rfl (by decide)
  rw [Layout.call]
  split
  · exact h.append broken.spelled (apart_wrap fun u => apart_cons (p := .char '(') (by decide))
  · exact h.append (arguments_laid sound).spelled (apart_wrap apart_paren)

theorem condition_laid {type : Option Text} (sound : Sound (conditionWords type)) :
    Laid (Layout.wrap "on " (type.getD []) "") (conditionWords type) := by
  cases type with
  | none => exact laid_nil
  | some n =>
      simp only [conditionWords, sound_cons, name_sound] at sound
      have name := (spelled_name sound.2.1).laid (List.cons_ne_nil _ _)
      exact front_laid "on " name (List.cons_ne_nil _ _)
        ((spelled_name sound.1).space name.spelled)

mutual

theorem selection_spelled (s : Selection) (sound : Sound s.words) :
    Spelled (Layout.selection s) s.words := by
  cases s with
  | field label n args ds inner =>
      simp only [Selection.words, sound_append, sound_optionally] at sound
      obtain ⟨title, args, directives, inside⟩ := sound
      have call := (call_spelled (title_spelled title) args).laid
        (List.append_ne_nil_of_left_ne_nil (title_ne_nil label n) _)
      have parts := join_laid " " (by decide) (.cons call (.cons (directives_laid directives)
        (.cons (optionalSelections_laid inner inside) .nil)))
      simp only [List.flatten_cons, List.flatten_nil, List.append_nil, List.append_assoc] at parts
      rw [Selection.words, Layout.selection]
      exact parts.spelled
  | spread n ds =>
      simp only [Selection.words, sound_cons, name_sound] at sound
      obtain ⟨-, name, directives⟩ := sound
      have text : Layout.selection (.spread n ds) =
          Text.ofString "..." ++ (n ++ Layout.wrap " " (Layout.directives ds) "") := by
        simp [Layout.selection, Text.concat]
      rw [text, Selection.words]
      exact .dots ((spelled_name name).wrapped (directives_laid directives))
  | inline type ds inner =>
      simp only [Selection.words, sound_append, sound_cons, sound_enclosed] at sound
      obtain ⟨-, condition, directives, inside⟩ := sound
      have dots : Laid (Text.ofString "...") [.dots] :=
        (Spelled.dots .nil).laid (List.cons_ne_nil _ _)
      have block := selectionBlock_spelled (selections_laid inner inside)
        (List.forall_mem_map.mpr fun s _ => (selection_startsOutside s).1)
      have parts := join_laid " " (by decide)
        (.cons dots (.cons (condition_laid condition) (.cons (directives_laid directives)
          (.cons (block.laid (List.cons_ne_nil _ _)) .nil))))
      simp only [List.flatten_cons, List.flatten_nil, List.append_nil, List.singleton_append,
        ← List.flatMap_def, ← selectionWords_eq] at parts
      rw [Selection.words, Layout.selection]
      exact parts.spelled

theorem optionalSelections_laid (inner : Option (List Selection)) (sound : Sound (innerWords inner)) :
    Laid (Layout.optionalSelections inner) (innerWords inner) := by
  cases inner with
  | none => exact laid_nil
  | some inner =>
      rw [innerWords, sound_enclosed] at sound
      have block := selectionBlock_spelled (selections_laid inner sound)
        (List.forall_mem_map.mpr fun s _ => (selection_startsOutside s).1)
      rw [← List.flatMap_def, ← selectionWords_eq] at block
      rw [innerWords, Layout.optionalSelections]
      exact block.laid (List.cons_ne_nil _ _)

theorem selections_laid (ss : List Selection) (sound : Sound (selectionWords ss)) :
    List.Forall₂ Laid (Layout.selections ss) (ss.map Selection.words) := by
  cases ss with
  | nil => exact .nil
  | cons s ss =>
      obtain ⟨here, later⟩ := sound_append.mp sound
      exact .cons ((selection_spelled s here).laid (selection_startsOutside s).1)
        (selections_laid ss later)

end

theorem block_spelled {ss : List Selection} (sound : Sound (blockWords ss)) :
    Spelled (Layout.selectionBlock (Layout.selections ss)) (blockWords ss) := by
  have block := optionalSelections_laid (some ss) (by rwa [innerWords])
  rw [innerWords, Layout.optionalSelections] at block
  exact block.spelled

/-! ## Operations -/

/-- A text spells one list of words only. -/
theorem Spelled.unique (first : Spelled t ws) (second : Spelled t us) : ws = us := by
  have same := (first.scan 0).symm.trans (second.scan 0)
  exact List.append_cancel_right (List.map_injective_iff.mpr (fun _ _ => Option.some.inj) same)

/-- The words of an operation before its selections. -/
def headWords (o : Operation) : List Word :=
  descriptionWords o.description ++ .name (Layout.operationKind o.kind) ::
    ((o.name.map Word.name).toList ++
      (optionally '(' ')' (o.variableDefinitions.flatMap VariableDefinition.words) ++
        directiveWords o.directives))

theorem optionally_eq_nil {opening close : Char} : optionally opening close ws = [] ↔ ws = [] := by
  rw [optionally]
  split
  next empty => exact iff_of_true rfl empty
  next solid => exact iff_of_false (List.cons_ne_nil _ _) solid

/-- Nothing but the word of a query stands before the selections of bare queries only. -/
theorem isBare_of_head {o : Operation} (head : headWords o = [.name "query"]) : o.isBare = true := by
  obtain ⟨desc, kind, n, vs, ds, ss⟩ := o
  cases desc with
  | some desc => cases (List.cons.inj head).2
  | none =>
      obtain ⟨word, rest⟩ := List.cons.inj head
      obtain ⟨name, rest⟩ := List.append_eq_nil_iff.mp rest
      obtain ⟨list, directives⟩ := List.append_eq_nil_iff.mp rest
      have named : n = none := by
        cases n with
        | none => rfl
        | some n => cases name
      have defined : vs = [] := by
        cases vs with
        | nil => rfl
        | cons v vs =>
            rw [optionally_eq_nil, List.flatMap_cons] at list
            exact absurd (List.append_eq_nil_iff.mp list).1
              (description_ne_nil v.description (List.cons_ne_nil _ _))
      have directed : ds = [] := by
        cases ds with
        | nil => rfl
        | cons d ds => cases directives
      have query : kind = .query := by
        have same := (Prod.mk.inj word).2
        cases kind
        · rfl
        all_goals
          simp only [Layout.operationKind] at same
          exact absurd same (by decide)
      simp [Operation.isBare, named, defined, directed, query]

theorem head_spelled {o : Operation} (sound : Sound (headWords o)) :
    Spelled (Layout.description o.description ++ Layout.join " " [Layout.operationKind o.kind,
      o.name.getD [] ++ Layout.definitionList (o.variableDefinitions.map Layout.variableDefinition),
      Layout.directives o.directives]) (headWords o) := by
  simp only [headWords, sound_append, sound_cons, name_sound, sound_optionally] at sound
  obtain ⟨described, kind, name, args, directives⟩ := sound
  have list := definitionList_laid variableDefinition_laid args
  have title : Laid
      (o.name.getD [] ++
        Layout.definitionList (o.variableDefinitions.map Layout.variableDefinition))
      ((o.name.map Word.name).toList ++
        optionally '(' ')' (o.variableDefinitions.flatMap VariableDefinition.words)) := by
    cases n : o.name with
    | none => exact list
    | some n =>
        rw [n] at name
        have named := spelled_name (sound_cons.mp name).1
        exact (named.append list.spelled (apart_definitionList _)).laid (List.cons_ne_nil _ _)
  have word := (spelled_name kind).laid (List.cons_ne_nil _ _)
  have parts := join_laid " " (by decide)
    (.cons word (.cons title (.cons (directives_laid directives) .nil)))
  simp only [List.flatten_cons, List.flatten_nil, List.append_nil, List.append_assoc,
    List.singleton_append] at parts
  exact described_spelled described parts.spelled

theorem operation_spelled {o : Operation} (sound : Sound o.words) :
    Spelled (Layout.operation o) o.words := by
  by_cases bare : o.isBare = true
  · obtain ⟨desc, kind, n, vs, ds, ss⟩ := o
    -- The words of a bare query are its selections, whatever could stand before them.
    rw [Operation.words, if_pos bare] at sound ⊢
    simp only [Operation.isBare, Bool.and_eq_true, decide_eq_true_eq, Option.isNone_iff_eq_none,
      List.isEmpty_iff] at bare
    obtain ⟨⟨⟨⟨rfl, rfl⟩, rfl⟩, rfl⟩, rfl⟩ := bare
    exact block_spelled sound
  · have words : o.words = headWords o ++ blockWords o.selections := by
      rw [Operation.words, if_neg bare, headWords]
      simp only [List.append_assoc, List.cons_append]
    rw [words, sound_append] at sound
    have head := head_spelled sound.1
    have body := block_spelled sound.2
    rw [Layout.operation, if_neg fun query => bare (isBare_of_head ?_), words]
    · have text {head : Text} : Text.concat [head, Text.ofString " ",
          Layout.selectionBlock (Layout.selections o.selections)] =
          head ++ .char ' ' :: Layout.selectionBlock (Layout.selections o.selections) := by
        simp [Text.concat, Text.ofString]
      rw [text]
      exact head.space body
    · rw [query] at head
      exact head.unique (spelled_name (by decide))

/-! ## Types -/

/-- Names with a mark and spaces between each two. -/
theorem delimited_laid {delimiter : Char} {sep : String} {ns : List Text}
    (isMark : Lexed.isMark (.char delimiter) = true)
    (spaced : Text.ofString sep = [.char ' ', .char delimiter, .char ' '])
    (names : ∀ n ∈ ns, n.isName = true) :
    Laid (Layout.join sep ns) (delimitedWords delimiter ns) := by
  induction ns with
  | nil => exact laid_nil
  | cons n ns ih =>
      obtain ⟨here, later⟩ := List.forall_mem_cons.mp names
      have rest := ih later
      rw [join_cons, if_neg (Text.isName_ne_nil here)]
      cases ns with
      | nil => exact (spelled_name here).laid (List.cons_ne_nil _ _)
      | cons m ns =>
          split
          next empty =>
            rw [empty] at rest
            cases rest.spelled.nil_words
          next =>
            rw [spaced]
            have others := Spelled.mark isMark (.gap (p := .char ' ') (by decide) rest.spelled)
            exact ((spelled_name here).space others).laid (List.cons_ne_nil _ _)

/-- Names after a first word, if there are names. -/
theorem list_laid {first : Word} {delimiter : Char} {before sep : String} {ns : List Text}
    (isMark : Lexed.isMark (.char delimiter) = true)
    (spaced : Text.ofString sep = [.char ' ', .char delimiter, .char ' '])
    (front : ∀ {t ws}, Spelled t ws → Spelled (Text.ofString before ++ t) (first :: ws))
    (sound : Sound (listWords first delimiter ns)) :
    Laid (Layout.wrap before (Layout.join sep ns) "") (listWords first delimiter ns) := by
  cases ns with
  | nil => exact laid_nil
  | cons n ns =>
      rw [listWords, if_neg (List.cons_ne_nil n ns)] at sound ⊢
      have laid := delimited_laid isMark spaced (sound_delimited.mp (sound_cons.mp sound).2)
      have all := front_laid before laid (List.cons_ne_nil _ _) (front laid.spelled)
      have solid : delimitedWords delimiter (n :: ns) ≠ [] := List.cons_ne_nil _ _
      rwa [if_neg solid] at all

theorem interfaces_laid {is : List Text} (sound : Sound (listWords (.name "implements") '&' is)) :
    Laid (Layout.wrap "implements " (Layout.join " & " is) "")
      (listWords (.name "implements") '&' is) :=
  list_laid (by decide) rfl (fun h => (spelled_name (n := "implements") (by decide)).space h) sound

theorem union_laid {ns : List Text} (sound : Sound (listWords (.mark '=') '|' ns)) :
    Laid (Layout.wrap "= " (Layout.join " | " ns) "") (listWords (.mark '=') '|' ns) :=
  list_laid (by decide) rfl
    (fun h => .mark (c := '=') (by decide) (.gap (p := .char ' ') (by decide) h)) sound

/-- The parts of a type, in the order of their words. -/
theorem typeParts_laid {n : Text} {ds : List Directive} {body : TypeBody} (name : n.isName = true)
    (sound : Sound (body.words ds)) : ∃ wss, List.Forall₂ Laid (Layout.typeParts n ds body) wss ∧
      wss.flatten = .name body.word :: .name n :: body.words ds := by
  have named : Laid n [.name n] := (spelled_name name).laid (List.cons_ne_nil _ _)
  have word : Laid (Text.ofString body.word) [.name body.word] :=
    (spelled_name (typeWord_word body).2).laid (List.cons_ne_nil _ _)
  -- It is enough to lay out what comes after the name.
  suffices ∃ parts wss, Layout.typeParts n ds body = Text.ofString body.word :: n :: parts ∧
      List.Forall₂ Laid parts wss ∧ wss.flatten = body.words ds by
    obtain ⟨parts, wss, text, laid, words⟩ := this
    rw [text]
    exact ⟨_, .cons word (.cons named laid), by simp [words]⟩
  cases body with
  | scalar =>
      exact ⟨_, _, rfl, .cons (directives_laid sound) .nil, by simp [TypeBody.words]⟩
  | object is fs | interface is fs =>
      simp only [TypeBody.words, sound_append, sound_optionally] at sound
      obtain ⟨implemented, directives, fields⟩ := sound
      exact ⟨_, _, rfl, .cons (interfaces_laid implemented) (.cons (directives_laid directives)
        (.cons (members_laid fieldDefinition_laid fields) .nil)), by simp [TypeBody.words]⟩
  | union ns =>
      simp only [TypeBody.words, sound_append] at sound
      exact ⟨_, _, rfl, .cons (directives_laid sound.1) (.cons (union_laid sound.2) .nil),
        by simp [TypeBody.words]⟩
  | enum vs =>
      simp only [TypeBody.words, sound_append, sound_optionally] at sound
      exact ⟨_, _, rfl, .cons (directives_laid sound.1)
        (.cons (members_laid enumValue_laid sound.2) .nil), by simp [TypeBody.words]⟩
  | input vs =>
      simp only [TypeBody.words, sound_append, sound_optionally] at sound
      exact ⟨_, _, rfl, .cons (directives_laid sound.1)
        (.cons (members_laid inputValue_laid sound.2) .nil), by simp [TypeBody.words]⟩

/-! ## Definitions -/

theorem apart_selectionBlock (parts : List Text) : Apart (Layout.selectionBlock parts) := by
  rw [Layout.selectionBlock]
  split
  next => exact apart_mark (c := '\x7b') (by decide)
  next => exact apart_wrap fun u => apart_mark (c := '\x7b') (by decide)

theorem fragment_spelled {desc : Option Description} {n type : Text} {ds : List Directive}
    {ss : List Selection} (sound : Sound (Definition.fragment desc n type ds ss).words) :
    Spelled (Layout.definition (.fragment desc n type ds ss))
      (Definition.fragment desc n type ds ss).words := by
  simp only [Definition.words, sound_append, sound_cons, name_sound] at sound
  obtain ⟨described, fragment, name, on_, typed, directives, block⟩ := sound
  have text : Layout.definition (.fragment desc n type ds ss) = Layout.description desc ++
      (Text.ofString "fragment" ++ .char ' ' :: (n ++ .char ' ' :: (Text.ofString "on" ++
        .char ' ' :: (type ++ .char ' ' :: (Layout.wrap "" (Layout.directives ds) " " ++
          Layout.selectionBlock (Layout.selections ss)))))) := by
    simp [Layout.definition, Text.concat, Text.ofString]
  have directed : Laid (Layout.wrap "" (Layout.directives ds) " ") (directiveWords ds) :=
    wrap_gap (directives_laid directives) (by decide) (by decide)
  have body := directed.spelled.append (block_spelled block) (apart_selectionBlock _)
  rw [text]
  exact described_spelled described ((spelled_name fragment).space ((spelled_name name).space
    ((spelled_name on_).space ((spelled_name typed).space body))))

theorem directive_definition_spelled {desc : Option Description} {n : Text} {args : List InputValue}
    {repeatable : Bool} {places : List Text}
    (sound : Sound (Definition.directive desc n args repeatable places).words) :
    Spelled (Layout.definition (.directive desc n args repeatable places))
      (Definition.directive desc n args repeatable places).words := by
  have text : Layout.definition (.directive desc n args repeatable places) = Layout.description desc ++
      (Text.ofString "directive" ++ .char ' ' :: .char '@' :: (n ++
        (Layout.definitionList (args.map Layout.inputValue) ++
          ((if repeatable then Text.ofString " repeatable" else []) ++ .char ' ' ::
            (Text.ofString "on" ++ .char ' ' :: Layout.join " | " places))))) := by
    simp [Layout.definition, Text.concat, Text.ofString]
  simp only [Definition.words, sound_append, sound_cons, name_sound, sound_optionally,
    sound_delimited] at sound
  obtain ⟨described, directive, -, name, args, -, on_, names⟩ := sound
  have list := definitionList_laid inputValue_laid args
  have last : Spelled (.char ' ' :: (Text.ofString "on" ++ .char ' ' :: Layout.join " | " places))
      (.name "on" :: delimitedWords '|' places) :=
    .gap (by decide) ((spelled_name on_).space (delimited_laid (by decide) rfl names).spelled)
  have repeated : Spelled ((if repeatable then Text.ofString " repeatable" else []) ++
      .char ' ' :: (Text.ofString "on" ++ .char ' ' :: Layout.join " | " places))
      ((if repeatable then [.name "repeatable"] else []) ++ .name "on" :: delimitedWords '|' places) := by
    cases repeatable with
    | false => exact last
    | true =>
        have word : Spelled (Text.ofString "repeatable") [.name "repeatable"] :=
          spelled_name (by decide)
        exact .gap (p := .char ' ') (by decide) (word.append last (apart_space _))
  rw [text]
  refine described_spelled described ((spelled_name directive).space (.mark (by decide)
    ((spelled_name name).append (list.spelled.append repeated ?_) ?_)))
  · cases repeatable <;> exact apart_space _
  · refine apart_append (apart_definitionList _) ?_
    cases repeatable <;> exact apart_space _

theorem definition_spelled {d : Definition} (sound : Sound d.words) (whole : d.IsWhole) :
    Spelled (Layout.definition d) d.words := by
  cases d with
  | operation o => exact operation_spelled sound
  | fragment => exact fragment_spelled sound
  | schema desc ds types =>
      simp only [Definition.words, sound_append, sound_cons, name_sound, sound_enclosed] at sound
      obtain ⟨described, schema, directives, members⟩ := sound
      have joined := join_laid " " (by decide)
        (.cons ((spelled_name schema).laid (List.cons_ne_nil _ _)) (.cons (directives_laid directives)
          (.cons (members_laid operationType_laid members) .nil)))
      have some_ : types.flatMap typeWords ≠ [] := by
        obtain ⟨t, ts, rfl⟩ := List.exists_cons_of_ne_nil whole
        exact List.cons_ne_nil _ _
      simp only [List.flatten_cons, List.flatten_nil, List.append_nil, optionally,
        if_neg some_] at joined
      exact described_spelled described joined.spelled
  | type desc n ds body =>
      simp only [Definition.words, sound_append, sound_cons, name_sound] at sound
      obtain ⟨described, -, name, members⟩ := sound
      obtain ⟨wss, parts, words⟩ := typeParts_laid name members
      have joined := join_laid " " (by decide) parts
      rw [words] at joined
      exact described_spelled described joined.spelled
  | directive => exact directive_definition_spelled sound
  | extendSchema ds types =>
      simp only [Definition.words, sound_append, sound_cons, name_sound, sound_optionally] at sound
      obtain ⟨extend, schema, directives, members⟩ := sound
      have both : Laid (Text.ofString "extend schema") [.name "extend", .name "schema"] :=
        ((spelled_name extend).space (spelled_name schema)).laid (List.cons_ne_nil _ _)
      have joined := join_laid " " (by decide) (.cons both (.cons (directives_laid directives)
        (.cons (members_laid operationType_laid members) .nil)))
      simp only [List.flatten_cons, List.flatten_nil, List.append_nil] at joined
      exact joined.spelled
  | extendType n ds body =>
      simp only [Definition.words, sound_cons, name_sound] at sound
      obtain ⟨extend, -, name, members⟩ := sound
      obtain ⟨wss, parts, words⟩ := typeParts_laid name members
      have joined := join_laid " " (by decide)
        (.cons ((spelled_name extend).laid (List.cons_ne_nil _ _)) parts)
      rw [List.flatten_cons, words] at joined
      exact joined.spelled

/-- The normal layout of a document spells its words. -/
theorem document_spelled {ds : Document} (sound : ∀ d ∈ ds, Sound d.words)
    (whole : ∀ d ∈ ds, d.IsWhole) : Spelled (Document.render ds) ds.words := by
  have each (d : Definition) (among : d ∈ ds) : Laid (Layout.definition d) d.words := by
    refine (definition_spelled (sound d among) (whole d among)).laid ?_
    obtain ⟨w, us, words, -⟩ := opening_definition d
    rw [words]
    exact List.cons_ne_nil w us
  have joined := join_laid "\n\n" (by decide) (forall₂_map each)
  rw [← List.flatMap_def] at joined
  exact joined.spelled

end GraphQL

end ApprovedOps
