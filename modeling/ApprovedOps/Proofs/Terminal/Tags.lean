import ApprovedOps.Proofs.Terminal.Drawn
import ApprovedOps.Proofs.Except

/-! # Tags in balance

A text with markup can be used just when none of its tags closes what is not open. Then a table is
drawn from it; one text out of balance, and there is no table at all.
-/

namespace ApprovedOps

namespace Markup

/-- What a closing tag says after its slash. A tag of blanks alone closes whatever was opened last. -/
def Tag.closed? (t : Tag) : Option Text :=
  match t.name with
  | .char '/' :: r => some (Text.trim r)
  | _ => none

/-- Are the tags of parts in balance with the styles that are open before them, the last one first? -/
inductive Balanced : List Text → List Part → Prop where
  | nil {o : List Text} : Balanced o []
  | plain {o : List Text} {ps : List Part} {x : Text} (rest : Balanced o ps) :
    Balanced o (.plain x :: ps)
  | opens {o : List Text} {ps : List Part} {t : Tag} (tag : t.closed? = none)
    (rest : Balanced (Style.canonical t.name :: o) ps) : Balanced o (.tag t :: ps)
  | closesLast {o : List Text} {ps : List Part} {t : Tag} {style : Text}
    (tag : t.closed? = some []) (rest : Balanced o ps) : Balanced (style :: o) (.tag t :: ps)
  | closes {o : List Text} {ps : List Part} {t : Tag} {name : Text}
    (tag : t.closed? = some name) (named : name ≠ []) (isOpen : Style.canonical name ∈ o)
    (rest : Balanced (o.erase (Style.canonical name)) ps) : Balanced o (.tag t :: ps)

variable {t : Tag} {o : List Text} {ps : List Part}

theorem afterTag_eq (o : List Text) (t : Tag) : afterTag o t =
    match t.closed? with
    | some name =>
      if name = [] then
        match o with
        | [] => .error .nothingOpen
        | _ :: rest => .ok rest
      else if o.contains (Style.canonical name) then .ok (o.erase (Style.canonical name))
      else .error (.notOpen t)
    | none => .ok (Style.canonical t.name :: o) := by
  obtain ⟨name, parameters⟩ := t
  match name with
  | [] | .surrogate _ :: _ => rfl
  | .char c :: r =>
      by_cases slash : c = '/'
      · subst slash
        rfl
      · simp [afterTag, Tag.closed?, slash]

theorem afterTag_opens (tag : t.closed? = none) :
    afterTag o t = .ok (Style.canonical t.name :: o) := by
  rw [afterTag_eq, tag]

theorem afterTag_closesLast (tag : t.closed? = some []) : afterTag o t =
    match o with
    | [] => .error .nothingOpen
    | _ :: rest => .ok rest := by
  rw [afterTag_eq, tag]
  rfl

theorem afterTag_closes {name : Text} (tag : t.closed? = some name) (named : name ≠ []) :
    afterTag o t =
      if Style.canonical name ∈ o then .ok (o.erase (Style.canonical name))
      else .error (.notOpen t) := by
  rw [afterTag_eq, tag]
  simp only [if_neg named, List.contains_iff_mem]

theorem Balanced.plainOf (h : Balanced o ps) : ∃ x, plainOf o ps = .ok x := by
  induction h with
  | nil => exact ⟨[], rfl⟩
  | plain rest ih =>
      obtain ⟨x, read⟩ := ih
      exact ⟨_, by rw [Markup.plainOf, read]; rfl⟩
  | opens tag rest ih =>
      obtain ⟨x, read⟩ := ih
      exact ⟨x, by rw [Markup.plainOf, afterTag_opens tag]; exact read⟩
  | closesLast tag rest ih =>
      obtain ⟨x, read⟩ := ih
      exact ⟨x, by rw [Markup.plainOf, afterTag_closesLast tag]; exact read⟩
  | closes tag named isOpen rest ih =>
      obtain ⟨x, read⟩ := ih
      exact ⟨x, by rw [Markup.plainOf, afterTag_closes tag named, if_pos isOpen]; exact read⟩

theorem balanced_of_plainOf {x : Text} (read : plainOf o ps = .ok x) : Balanced o ps := by
  induction ps generalizing o x with
  | nil => exact .nil
  | cons p rest ih =>
      cases p with
      | plain s =>
          obtain ⟨x, read, -⟩ := except_map_ok read
          exact .plain (ih read)
      | tag t =>
          obtain ⟨after, tagged, read⟩ := except_bind_ok read
          have later := ih read
          cases tag : t.closed? with
          | none =>
              cases (afterTag_opens tag).symm.trans tagged
              exact .opens tag later
          | some name =>
              by_cases last : name = []
              · subst last
                rw [afterTag_closesLast tag] at tagged
                cases o with
                | nil => cases tagged
                | cons style o =>
                    cases tagged
                    exact .closesLast tag later
              · rw [afterTag_closes tag last] at tagged
                split at tagged
                next isOpen =>
                  cases tagged
                  exact .closes tag last isOpen later
                next => cases tagged

/-! ## Texts -/

theorem escapedTagAt?_none {x : Text} (bare : .char '[' ∉ x) : escapedTagAt? x = none := by
  rw [escapedTagAt?, Option.map_eq_none_iff]
  generalize (x.takeWhile _).length = slashes
  have bare : .char '[' ∉ x.drop slashes := fun among => bare (List.mem_of_mem_drop among)
  unfold tagAt?
  split
  next p r text => exact absurd (text ▸ List.mem_cons_self) bare
  next => rfl

theorem balanced_plainPart (x : Text) : Balanced o (plainPart x) := by
  rw [plainPart]
  split
  next => exact .nil
  next => exact .plain .nil

/-- A text without opening brackets has no tags. -/
theorem balanced_of_bare (before : Text) (steps : Nat) {x : Text} (bare : .char '[' ∉ x) :
    Balanced o (partsAfter before steps x) := by
  induction steps generalizing before x with
  | zero => exact balanced_plainPart _
  | succ steps ih =>
      unfold partsAfter
      rw [escapedTagAt?_none bare]
      cases x with
      | nil => exact balanced_plainPart _
      | cons p r => exact ih (p :: before) fun among => bare (List.mem_cons_of_mem p among)

/-- A text with markup can be used just when its tags are in balance. -/
theorem plain_ok_iff (x : Text) : (∃ shown, plain x = .ok shown) ↔ Balanced [] (parts x) := by
  rw [plain]
  split
  next => exact ⟨fun ⟨_, read⟩ => balanced_of_plainOf read, Balanced.plainOf⟩
  next bare =>
    have bare : .char '[' ∉ x := by simpa using bare
    exact iff_of_true ⟨_, rfl⟩ (balanced_of_bare [] _ bare)

end Markup

theorem mapM_ok {ε α β : Type} {f : α → Except ε β} {as : List α} :
    (∃ bs, as.mapM f = .ok bs) ↔ ∀ a ∈ as, ∃ b, f a = .ok b := by
  induction as with
  | nil => exact iff_of_true ⟨[], rfl⟩ (List.forall_mem_nil _)
  | cons a rest ih =>
      rw [List.forall_mem_cons, ← ih, List.mapM_cons]
      constructor
      · intro ⟨_, made⟩
        obtain ⟨b, here, made⟩ := except_bind_ok made
        obtain ⟨bs, later, -⟩ := except_bind_ok made
        exact ⟨⟨b, here⟩, bs, later⟩
      · intro ⟨⟨b, here⟩, bs, later⟩
        exact ⟨b :: bs, by rw [here, later]; rfl⟩

theorem mem_of_mapM {ε α β : Type} {f : α → Except ε β} {as : List α} {bs : List β}
    (made : as.mapM f = .ok bs) {b : β} (among : b ∈ bs) : ∃ a ∈ as, f a = .ok b := by
  induction as generalizing bs with
  | nil =>
      cases made
      cases among
  | cons a rest ih =>
      rw [List.mapM_cons] at made
      obtain ⟨first, here, made⟩ := except_bind_ok made
      obtain ⟨others, later, same⟩ := except_bind_ok made
      cases same
      obtain rfl | among := List.mem_cons.mp among
      · exact ⟨a, List.mem_cons_self, here⟩
      · obtain ⟨a, inside, made⟩ := ih later among
        exact ⟨a, List.mem_cons_of_mem _ inside, made⟩

namespace Table

variable {t shown : Table}

theorem plain_ok_iff (x : Text) :
    (∃ shown, plain x = .ok shown) ↔ Markup.Balanced [] (Markup.parts x) := by
  rw [← Markup.plain_ok_iff]
  constructor
  · intro ⟨_, read⟩
    obtain ⟨shown, read, -⟩ := except_map_ok read
    exact ⟨shown, read⟩
  · intro ⟨shown, read⟩
    exact ⟨_, by rw [plain, read]; rfl⟩

/-- A table can be drawn just when every text in it is in balance. -/
theorem withoutMarkup_ok_iff (t : Table) : (∃ shown, t.withoutMarkup = .ok shown) ↔
    ∀ x ∈ t.texts, Markup.Balanced [] (Markup.parts x) := by
  simp only [← plain_ok_iff]
  rw [texts, List.forall_mem_cons, List.forall_mem_flatten]
  simp only [← mapM_ok]
  constructor
  · intro ⟨_, read⟩
    obtain ⟨title, here, read⟩ := except_bind_ok read
    obtain ⟨rows, later, -⟩ := except_bind_ok read
    exact ⟨⟨title, here⟩, rows, later⟩
  · intro ⟨⟨title, here⟩, rows, later⟩
    exact ⟨{ t with title, rows }, by rw [withoutMarkup, here, later]; rfl⟩

theorem mem_texts_of_withoutMarkup (read : t.withoutMarkup = .ok shown) :
    shown.columns = t.columns ∧ ∀ y ∈ shown.texts, ∃ x ∈ t.texts, plain x = .ok y := by
  obtain ⟨title, here, read⟩ := except_bind_ok read
  obtain ⟨rows, later, same⟩ := except_bind_ok read
  cases same
  refine ⟨rfl, List.forall_mem_cons.mpr ⟨⟨t.title, List.mem_cons_self, here⟩, ?_⟩⟩
  intro y among
  obtain ⟨row, inside, among⟩ := List.mem_flatten.mp among
  obtain ⟨texts, inRows, made⟩ := mem_of_mapM later inside
  obtain ⟨x, inTexts, read⟩ := mem_of_mapM made among
  exact ⟨x, List.mem_cons_of_mem _ (List.mem_flatten.mpr ⟨texts, inRows, inTexts⟩), read⟩

end Table

end ApprovedOps
