import ApprovedOps.Proofs.GraphQL.Rereading.Values

/-! # Operations and fragments that are read again

Selections nest, so that they are read again by induction on the bound of their reader: a field, the
use of a fragment and an inline fragment are, if the selections inside are.
-/

namespace ApprovedOps

namespace GraphQL

open Reader (mark)

/-! ## Selections -/

theorem yields_nameUnless {α : Type} (bad : Text → Prop) [DecidablePred bad] {e : Token → Reader α}
    {f : Text → Reader α} {P : α → Prop} (fails : ∀ t, Yields (e t) P)
    (h : ∀ n, n.isName = true → ¬bad n → Yields (f n) P) :
    Yields (Reader.current >>= fun t => if bad t.value then e t else Reader.name >>= f) P := by
  intro s x s' sound run
  rw [current_bind] at run
  split at run
  next => exact fails _ sound run
  next good =>
    obtain ⟨n, s₁, read, run⟩ := bind_ok run
    obtain ⟨name, sound₁⟩ := yields_name sound read
    obtain ⟨t, _, expected, value⟩ := bind_ok read
    cases value
    rw [Reader.expect, current_bind] at expected
    split at expected
    next =>
      obtain ⟨_, _, -, given⟩ := bind_ok expected
      cases given
      exact h _ name good sound₁ run
    next => cases expected

theorem yields_fragmentName : Yields Reader.fragmentName fun n =>
    n.isName = true ∧ n ≠ Text.ofString "on" := by
  have named := yields_nameUnless (· = Text.ofString "on") (f := pure)
    (P := fun n => n.isName = true ∧ n ≠ Text.ofString "on") yields_unexpected
    fun n name other => yields_pure ⟨name, other⟩
  simp only [bind_pure] at named
  exact named

theorem reads_fragmentName {n : Text} (other : n ≠ Text.ofString "on") :
    Reads Reader.fragmentName [.name n] n Anything := by
  refine reads_current fun t same => ?_
  rw [if_neg ((Prod.mk.inj same).2 ▸ other)]
  exact reads_name

theorem selectionWords_eq (ss : List Selection) : selectionWords ss = ss.flatMap Selection.words := by
  induction ss with
  | nil => rfl
  | cons s ss ih => rw [selectionWords, ih, List.flatMap_cons]

/-- A selection, nested at most as deep as the bound allows. -/
def selectionAt (n : Nat) : Reader Selection := do
  if ← Reader.isAt (.mark (Text.ofString "...")) then
    Reader.spread (Reader.selectionSet n)
  else
    Reader.field (Reader.selectionSet n)

/-- What must not come after a selection. -/
abbrev EndsSelection : List Word → Prop :=
  Avoids [':', '(', '@', '\x7b']

/-- Is the selection read again, wherever it may be nested as deep? -/
def Selection.Again (s : Selection) : Prop :=
  Sound s.words ∧ ∀ n, s.words.length ≤ n → Reads (selectionAt n) s.words s EndsSelection

/-- Are the selections read again with braces around them, wherever they may be nested as deep? -/
def SelectionsAgain (ss : List Selection) : Prop :=
  Sound (blockWords ss) ∧
    ∀ n, (blockWords ss).length ≤ n → Reads (Reader.selectionSet n) (blockWords ss) ss Anything

/-- What of a field comes after its name. -/
def fieldRest (selections : Reader (List Selection)) (label : Option Text) (n : Text) :
    Reader Selection := do
  let args ← Reader.arguments false
  let ds ← Reader.directives false
  if ← Reader.isAt (mark '\x7b') then
    return .field label n args ds (some (← selections))
  else
    return .field label n args ds none

theorem field_eq (selections : Reader (List Selection)) : Reader.field selections = (do
    let first ← Reader.name
    if ← Reader.takes (mark ':') then
      fieldRest selections (some first) (← Reader.name)
    else
      fieldRest selections none first) := rfl

theorem selection_startsOutside (s : Selection) :
    StartsOutside ['\x7d', ':', '(', '@', '\x7b'] s.words := by
  cases s with
  | field label => cases label <;> exact startsOutside_name
  | spread | inline => exact startsOutside_dots

theorem avoids_optionally {marks : List Char} {opening close : Char} {ws rest : List Word}
    (other : opening ∉ marks) (next : Avoids marks rest) :
    Avoids marks (optionally opening close ws ++ rest) := by
  rw [optionally]
  split
  next => exact next
  next => exact .mark other

theorem avoids_inner {marks : List Char} {block : Option (List Selection)} {rest : List Word}
    (other : '\x7b' ∉ marks) (next : Avoids marks rest) : Avoids marks (innerWords block ++ rest) := by
  cases block with
  | none => exact next
  | some ss => exact .mark other

theorem yields_fieldRest {n : Nat} (inner : Yields (Reader.selectionSet n) SelectionsAgain)
    (label : Option Text) (word : Text) :
    Yields (fieldRest (Reader.selectionSet n) label word) fun s => ∃ args ds block,
      s = .field label word args ds block ∧
      Sound (optionally '(' ')' (entryWords args) ++ (directiveWords ds ++ innerWords block)) ∧
      ∀ m, (innerWords block).length ≤ m → Reads (fieldRest (Reader.selectionSet m) label word)
        (optionally '(' ')' (entryWords args) ++ (directiveWords ds ++ innerWords block)) s
        (Avoids ['(', '@', '\x7b']) := by
  refine yields_bind (yields_arguments false) fun args arguments =>
    yields_bind (yields_directives false) fun ds directives => ?_
  have later {block : Option (List Selection)} (rest : List Word)
      (next : Avoids ['(', '@', '\x7b'] rest) : EndsDirectives (innerWords block ++ rest) :=
    avoids_inner (by decide) (next.mono (by decide))
  have next {block : Option (List Selection)} (rest : List Word)
      (next : Avoids ['(', '@', '\x7b'] rest) :
      Avoids ['('] (directiveWords ds ++ innerWords block ++ rest) := by
    rw [List.append_assoc]
    exact avoids_directives (by decide) ((later rest next).mono (by decide))
  refine yields_bind (yields_isAt _) fun _ _ => yields_if ?_ ?_
  · refine yields_bind inner fun ss again =>
      yields_pure ⟨args, ds, some ss, rfl, ?_, fun m deep => ?_⟩
    · simp only [sound_append, arguments.sound, directives.sound, true_and]
      exact again.1
    · refine reads_bind arguments.reads (reads_bind directives.reads ?_ later) next
      refine reads_isAt ?_
      rw [if_pos rfl]
      exact reads_anywhere (reads_map (again.2 m deep) (Selection.field label word args ds ∘ some))
  · refine yields_pure ⟨args, ds, none, rfl, ?_, fun m _ => ?_⟩
    · simp [arguments.sound, directives.sound, innerWords]
    · refine reads_bind arguments.reads (reads_bind directives.reads ?_ later) next
      exact reads_notAt (reads_pure _) fun rest next => next '\x7b' (by decide)

/-- A field is read again as one, since it begins with a name. -/
theorem field_again {label : Option Text} {word : Text} {args : List Argument} {ds : List Directive}
    {block : Option (List Selection)}
    (names : Sound (titleWords label word))
    (sound : Sound (optionally '(' ')' (entryWords args) ++ (directiveWords ds ++ innerWords block)))
    (reads : ∀ m, (innerWords block).length ≤ m → Reads (fieldRest (Reader.selectionSet m) label word)
        (optionally '(' ')' (entryWords args) ++ (directiveWords ds ++ innerWords block))
        (.field label word args ds block) (Avoids ['(', '@', '\x7b'])) :
    (Selection.field label word args ds block).Again := by
  rw [Selection.Again, Selection.words]
  refine ⟨sound_append.mpr ⟨names, sound⟩, fun m deep => ?_⟩
  have short : (innerWords block).length ≤ m := by
    simp only [List.length_append] at deep
    omega
  have next (rest : List Word) (next : EndsSelection rest) : Avoids [':']
      (optionally '(' ')' (entryWords args) ++ (directiveWords ds ++ innerWords block) ++ rest) := by
    rw [List.append_assoc, List.append_assoc]
    refine avoids_optionally (by decide) (avoids_directives (by decide) ?_)
    exact avoids_inner (by decide) (next.mono (by decide))
  have later := reads_mono (reads m short) fun rest (next : EndsSelection rest) =>
    next.mono (by decide)
  refine reads_notAt ?_ fun rest _ w first => ?_
  · rw [if_neg (by decide), field_eq]
    cases label with
    | none => exact reads_named (reads_skips later next)
    | some label => exact reads_named (reads_takes (reads_named later))
  · -- A name is not the three dots of the other selections.
    cases label <;> cases first <;> nofun

/-- The use of a fragment is read again as one, since its name is not the word of a type
    condition. -/
theorem spread_again {word : Text} {ds : List Directive} (name : word.isName = true)
    (other : word ≠ Text.ofString "on")
    (directives : Rereads (Reader.directives false) (directiveWords ds) ds EndsDirectives) :
    (Selection.spread word ds).Again := by
  rw [Selection.Again, Selection.words]
  refine ⟨by simp [name, directives.sound], fun m _ => reads_isAt (reads_expect fun _ _ => ?_)⟩
  refine reads_skipsWord ?_ fun rest _ same => other (Prod.mk.inj (Option.some.inj same)).2
  refine reads_isAt (reads_next (reads_fragmentName other) ?_)
  have ends (rest : List Word) (next : EndsSelection rest) : EndsDirectives rest :=
    next.mono (by decide)
  exact reads_map (reads_mono directives.reads ends) _

theorem block_marked (ds : List Directive) (ss : List Selection) :
    ∃ c us, directiveWords ds ++ blockWords ss = .mark c :: us := by
  cases ds <;> exact ⟨_, _, rfl⟩

/-- A reader that looks for a name sees that there is none in front of a mark. -/
theorem reads_unnamed {α : Type} {f : Bool → Reader α} {ws : List Word} {x : α}
    {Q : List Word → Prop} (marked : ∃ c us, ws = .mark c :: us) (h : Reads (f false) ws x Q) :
    Reads (Reader.isAt .name >>= f) ws x Q := by
  obtain ⟨c, us, rfl⟩ := marked
  refine reads_notAt h fun _ _ w first => ?_
  cases first
  nofun

theorem inline_again {type : Option Text} {ds : List Directive} {ss : List Selection}
    (names : Sound (conditionWords type))
    (directives : Rereads (Reader.directives false) (directiveWords ds) ds EndsDirectives)
    (again : SelectionsAgain ss) : (Selection.inline type ds ss).Again := by
  have words : (Selection.inline type ds ss).words =
      .dots :: (conditionWords type ++ (directiveWords ds ++ blockWords ss)) := by
    rw [Selection.words, blockWords]
  rw [Selection.Again, words]
  refine ⟨by simp [names, directives.sound, again.1], fun m deep =>
    reads_isAt (reads_expect fun _ _ => ?_)⟩
  have short : (blockWords ss).length ≤ m := by
    simp only [List.length_cons, List.length_append] at deep
    omega
  have block (rest : List Word) : EndsDirectives (blockWords ss ++ rest) := .mark (by decide)
  have inside : Reads (do
      let ds ← Reader.directives false
      return Selection.inline type ds (← Reader.selectionSet m))
      (directiveWords ds ++ blockWords ss) (.inline type ds ss) EndsSelection :=
    reads_bind directives.reads
      (reads_anywhere (reads_map (again.2 m short) (Selection.inline type ds))) fun rest _ => block rest
  cases type with
  | some n => exact reads_takesWord (reads_named inside)
  | none =>
      refine reads_skipsWord (reads_unnamed (block_marked ds ss) inside) fun rest _ => ?_
      obtain ⟨c, us, text⟩ := block_marked ds ss
      rw [conditionWords, List.nil_append, text]
      nofun

theorem selections_again {ss : List Selection} (again : ∀ s ∈ ss, s.Again) : SelectionsAgain ss := by
  have words : blockWords ss = enclosed '\x7b' '\x7d' (ss.flatMap Selection.words) := by
    rw [blockWords, selectionWords_eq]
  rw [SelectionsAgain, words]
  refine ⟨?_, fun m deep => ?_⟩
  · rw [sound_enclosed, sound_flatMap]
    exact fun s among => (again s among).1
  · obtain ⟨m, rfl, deep⟩ := deep_succ (List.cons_ne_nil _ _) deep
    have each (s : Selection) (among : s ∈ ss) : Reads (selectionAt m) s.words s EndsSelection := by
      refine (again s among).2 m ?_
      have short := length_le_words Selection.words among
      simp only [enclosed, List.length_cons, List.length_append] at deep
      omega
    exact reads_any (by decide) each fun s _ => selection_startsOutside s

section

variable {n : Nat} (inner : Yields (Reader.selectionSet n) SelectionsAgain)

include inner

theorem yields_spread : Yields (Reader.spread (Reader.selectionSet n)) Selection.Again := by
  have rest (type : Option Text) (names : Sound (conditionWords type)) : Yields (do
      let ds ← Reader.directives false
      return Selection.inline type ds (← Reader.selectionSet n)) Selection.Again :=
    yields_bind (yields_directives false) fun ds directives => yields_bind inner fun ss again =>
      yields_pure (inline_again names directives again)
  refine yields_bind (yields_expect _) fun _ _ => yields_bind (yields_takesWord _) fun _ _ =>
    yields_if ?_ (yields_bind (yields_isAt _) fun _ _ => yields_if ?_ ?_)
  · refine yields_bind yields_name fun word name => rest (some word) ?_
    exact sound_cons.mpr ⟨name_sound.mpr (by decide), sound_cons.mpr ⟨name, sound_nil⟩⟩
  · exact yields_bind yields_fragmentName fun word named =>
      yields_bind (yields_directives false) fun ds directives =>
        yields_pure (spread_again named.1 named.2 directives)
  · exact rest none sound_nil

theorem yields_field : Yields (Reader.field (Reader.selectionSet n)) Selection.Again := by
  have rest (label : Option Text) (word : Text) (names : Sound (titleWords label word)) :
      Yields (fieldRest (Reader.selectionSet n) label word) Selection.Again := by
    refine yields_mono (yields_fieldRest inner label word) ?_
    rintro s ⟨args, ds, block, rfl, sound, reads⟩
    exact field_again names sound reads
  refine yields_bind yields_name fun first name => yields_bind (yields_takes _) fun labelled _ =>
    yields_if ?_ ?_
  · exact yields_bind yields_name fun word name' =>
      rest (some first) word (by simp [titleWords, name, name'])
  · exact rest none first (by simp [titleWords, name])

end

/-- Selections are read again from their words, with any bound that is not less than their
    number. -/
theorem yields_selectionSet (n : Nat) : Yields (Reader.selectionSet n) SelectionsAgain := by
  induction n with
  | zero => exact yields_current fun t _ => yields_unexpected t
  | succ n ih =>
      have item : Yields (selectionAt n) Selection.Again :=
        yields_bind (yields_isAt _) fun _ _ => yields_if (yields_spread ih) (yields_field ih)
      exact yields_mono (yields_any item _ _) fun ss again => selections_again again

theorem yields_selections : Yields Reader.selections fun ss =>
    Rereads Reader.selections (blockWords ss) ss Anything :=
  yields_bind yields_bound fun n _ => yields_mono (yields_selectionSet n) fun _ again =>
    ⟨again.1, reads_bound fun m long => again.2 m (Nat.le_of_lt long)⟩

/-! ## Operations -/

theorem yields_variableDefinition : Yields Reader.variableDefinition fun v =>
    Rereads Reader.variableDefinition v.words v EndsTyped := by
  refine yields_bind yields_description fun desc described =>
    yields_bind yields_variableName fun n name =>
      yields_mark fun _ => yields_bind yields_type fun t type =>
        yields_bind yields_defaultValue fun v default =>
          yields_bind (yields_directives true) fun ds directives => yields_pure ⟨?_, ?_⟩
  · simp [VariableDefinition.words, described.sound, name, type.sound, default.sound,
      directives.sound]
  · exact reads_bind described.reads (reads_congr (reads_then reads_variableName (reads_mark fun _ =>
      reads_typed type default directives _)) rfl) fun _ _ => noString_mark

theorem operationKind_words (kind : OperationKind) :
    Reader.operationKind? (Layout.operationKind kind) = some kind ∧
      Text.isName (Layout.operationKind kind) = true := by
  cases kind <;> exact ⟨rfl, by decide⟩

theorem reads_operationKind {kind : OperationKind} :
    Reads Reader.operationKind [.name (Layout.operationKind kind)] kind Anything := by
  refine reads_expect fun t same => ?_
  rw [same, (operationKind_words kind).1]
  exact reads_pure kind

theorem yields_operationKind : Yields Reader.operationKind fun _ => True := by
  refine yields_bind (yields_expect _) fun t _ => ?_
  cases Reader.operationKind? t.value with
  | some kind => exact yields_pure trivial
  | none => exact yields_unexpected t

/-- What of an operation comes after its name. -/
def operationRest (desc : Option Description) (kind : OperationKind) (n : Option Text) :
    Reader Operation := do
  let vs ← Reader.optionalMany '(' ')' Reader.variableDefinition
  let ds ← Reader.directives false
  return { description := desc, kind, name := n, variableDefinitions := vs, directives := ds,
           selections := ← Reader.selections }

theorem operation_eq : Reader.operation = (do
    if ← Reader.isAt (mark '\x7b') then
      return {
        description := none, kind := .query, name := none, variableDefinitions := [], directives := []
        selections := ← Reader.selections }
    else
      let desc ← Reader.description
      let kind ← Reader.operationKind
      if ← Reader.isAt .name then
        operationRest desc kind (some (← Reader.name))
      else
        operationRest desc kind none) := rfl

/-- A query of selections only is read from these. -/
theorem reads_bare {ss : List Selection}
    (again : Rereads Reader.selections (blockWords ss) ss Anything) :
    Reads Reader.operation (blockWords ss)
      { description := none, kind := .query, name := none, variableDefinitions := [], directives := [],
        selections := ss } Anything := by
  rw [operation_eq]
  refine reads_isAt ?_
  rw [if_pos rfl]
  exact reads_map again.reads (Operation.mk none .query none [] [])

theorem operation_again {o : Operation}
    (described : Rereads Reader.description (descriptionWords o.description) o.description NoString)
    (name : ∀ n ∈ o.name, n.isName = true)
    (defined : Rereads (Reader.optionalMany '(' ')' Reader.variableDefinition)
      (optionally '(' ')' (o.variableDefinitions.flatMap VariableDefinition.words))
      o.variableDefinitions (Avoids ['(']))
    (directives : Rereads (Reader.directives false) (directiveWords o.directives) o.directives
      EndsDirectives)
    (selected : Rereads Reader.selections (blockWords o.selections) o.selections Anything) :
    Rereads Reader.operation o.words o Anything := by
  obtain ⟨desc, kind, n, vs, ds, ss⟩ := o
  rw [Operation.words]
  split
  next bare =>
    simp only [Operation.isBare, Bool.and_eq_true, decide_eq_true_eq, Option.isNone_iff_eq_none,
      List.isEmpty_iff] at bare
    obtain ⟨⟨⟨⟨rfl, rfl⟩, rfl⟩, rfl⟩, rfl⟩ := bare
    exact ⟨selected.sound, reads_bare selected⟩
  next =>
    have block (rest : List Word) : EndsDirectives (blockWords ss ++ rest) := .mark (by decide)
    have rest (n : Option Text) : Reads (operationRest desc kind n)
        (optionally '(' ')' (vs.flatMap VariableDefinition.words) ++
          (directiveWords ds ++ blockWords ss))
        ⟨desc, kind, n, vs, ds, ss⟩ Anything := by
      refine reads_bind defined.reads (reads_bind directives.reads (reads_map selected.reads
        (Operation.mk desc kind n vs ds)) fun rest _ => block rest) fun rest _ => ?_
      rw [List.append_assoc]
      exact avoids_directives (by decide) (.mark (by decide))
    refine ⟨?_, ?_⟩
    · have named : Sound (n.map Word.name).toList := by
        cases n with
        | none => exact sound_nil
        | some n => exact sound_cons.mpr ⟨name n rfl, sound_nil⟩
      simp [described.sound, defined.sound, directives.sound, selected.sound,
        (operationKind_words kind).2, named]
    · rw [operation_eq]
      refine reads_notAt ?_ fun rest _ =>
        (description_startsOutside startsOutside_name desc).avoids _ (List.mem_singleton_self _)
      refine reads_bind described.reads (reads_next reads_operationKind ?_) fun _ _ => noString_name
      cases n with
      | some n => exact reads_isAt (reads_named (rest (some n)))
      | none =>
          refine reads_unnamed ?_ (rest none)
          change ∃ c us, optionally '(' ')' (vs.flatMap VariableDefinition.words) ++
            (directiveWords ds ++ blockWords ss) = .mark c :: us
          rw [optionally]
          split
          next => exact block_marked ds ss
          next => exact ⟨_, _, rfl⟩

theorem yields_operation : Yields Reader.operation fun o =>
    Rereads Reader.operation o.words o Anything := by
  rw [operation_eq]
  refine yields_bind (yields_isAt _) fun _ _ => yields_if ?_ ?_
  · exact yields_bind yields_selections fun ss again => yields_pure ⟨again.sound, reads_bare again⟩
  · refine yields_bind yields_description fun desc described =>
      yields_bind yields_operationKind fun kind _ => ?_
    have rest (n : Option Text) (name : ∀ m ∈ n, m.isName = true) :
        Yields (operationRest desc kind n) fun o => Rereads Reader.operation o.words o Anything := by
      refine yields_bind (yields_optionally yields_variableDefinition (by decide) fun v =>
        description_startsOutside (startsOutside_mark (by decide)) v.description) fun vs defined => ?_
      refine yields_bind (yields_directives false) fun ds directives =>
        yields_bind yields_selections fun ss again => yields_pure ?_
      exact operation_again described name defined directives again
    refine yields_bind (yields_isAt _) fun _ _ => yields_if ?_ ?_
    · exact yields_bind yields_name fun n name => rest (some n) (by simpa using name)
    · exact rest none (by simp)

end GraphQL

end ApprovedOps
