import ApprovedOps.Proofs.Document.Divided

/-! # What comments and strings say

Two documents that have the same lexemes, but for what their comments and strings say, are walked in
step: both are refused, or both are divided at the same places. Only the name of a fragment is read
from the text and not from the lexemes, and there it is enough that the blanks are the same.
-/

namespace ApprovedOps

namespace Lexeme

/-! ## Outlines -/

instance (l l' : Lexeme) : Decidable (Similar l l') :=
  inferInstanceAs (Decidable (l'.kind = l.kind ∧ (l.kind = .comment ∨ l.kind = .string ∨
    l'.text = l.text)))

/-- What stands between lexemes of a text. -/
def gaps (t : Text) : List Lexeme → List Text
  | l :: m :: ls => Parts.slice t l.stop m.start :: gaps t (m :: ls)
  | _ => []

/-- Do two texts have the same lexemes with the same blanks between them, but for what comments and
    strings say? -/
structure SameOutline (t t' : Text) : Prop where
  complete : (scan t).2 = none ↔ (scan t').2 = none
  similar : List.Forall₂ Similar (scan t).1 (scan t').1
  gaps : gaps t (scan t).1 = gaps t' (scan t').1

theorem gaps_between (t : Text) (before : List Lexeme) (l m : Lexeme) (after : List Lexeme) :
    ∃ front back, gaps t (before ++ l :: m :: after) =
      front ++ Parts.slice t l.stop m.start :: back ∧ front.length = before.length := by
  induction before with
  | nil => exact ⟨[], _, rfl, rfl⟩
  | cons first before ih =>
      obtain ⟨front, back, later, size⟩ := ih
      obtain ⟨next, more, split⟩ : ∃ next more, before ++ l :: m :: after = next :: more := by
        cases before with
        | nil => exact ⟨_, _, rfl⟩
        | cons next before => exact ⟨_, _, rfl⟩
      refine ⟨Parts.slice t first.stop next.start :: front, back, ?_, by simp [size]⟩
      rw [List.cons_append, split, gaps, ← split, later, List.cons_append]

/-- Lexemes of the same number are similar. -/
theorem SameOutline.at {t t' : Text} (same : SameOutline t t')
    {before before' after after' : List Lexeme} {l l' : Lexeme}
    (whole : (scan t).1 = before ++ l :: after) (whole' : (scan t').1 = before' ++ l' :: after')
    (size : before'.length = before.length) : Similar l l' := by
  have similar := same.similar
  rw [whole, whole'] at similar
  have behind := List.forall₂_drop_append _ _ _ similar
  rw [size, List.drop_left] at behind
  exact (List.forall₂_cons.mp behind).1

/-- Lexemes of the same number have the same blanks behind them. -/
theorem SameOutline.between {t t' : Text} (same : SameOutline t t')
    {before before' after after' : List Lexeme} {l l' m m' : Lexeme}
    (whole : (scan t).1 = before ++ l :: m :: after)
    (whole' : (scan t').1 = before' ++ l' :: m' :: after') (size : before'.length = before.length) :
    Parts.slice t l.stop m.start = Parts.slice t' l'.stop m'.start := by
  obtain ⟨front, back, split, long⟩ := gaps_between t before l m after
  obtain ⟨front', back', split', long'⟩ := gaps_between t' before' l' m' after'
  have gaps := same.gaps
  rw [whole, whole', split, split'] at gaps
  exact (List.cons.inj (List.append_inj gaps (by omega)).2).1

theorem piece_of_start {c : CodePoint} (start : c.isNameStart = true) (r : Text) :
    Piece.of c r = .lexeme .name (r.takeWhile CodePoint.isNameContinue).length := by
  have blank := Parts.isNameStart_not_blank start
  have hash : c ≠ .char '#' := by
    rintro rfl
    cases start
  have slash : c ≠ .char '/' := by
    rintro rfl
    cases start
  have quote : c ≠ .char '"' := by
    rintro rfl
    cases start
  simp only [Piece.of, blank, hash, slash, quote, start, Bool.false_eq_true, if_false, if_true]

/-- Names are what begins as names do. -/
theorem piece_name {c : CodePoint} {r : Text} {kind : Kind} {n : Nat}
    (h : Piece.of c r = .lexeme kind n) : kind = .name ↔ c.isNameStart = true := by
  constructor
  · rintro rfl
    unfold Piece.of at h
    grind
  · intro start
    rw [piece_of_start start] at h
    cases h
    rfl

end Lexeme

/-! ## Names of fragments -/

open Lexeme

/-- A fragment is named by the lexeme behind its keyword if there are blanks between the two and the
    lexeme is a name. -/
theorem Fragment.declaredName?_lexeme {gap r : Text} {c : CodePoint} {kind : Kind} {n m : Nat}
    (blanks : ∀ d ∈ gap, d.isBlank = true) (found : Piece.of c r = .lexeme kind n)
    (within : kind = .name → n ≤ m) :
    declaredName? (Text.ofString "fragment" ++ (gap ++ c :: r.take m)) =
      if gap ≠ [] ∧ kind = .name then some (c :: r.take n) else none := by
  have solid := lexeme_not_blank found
  have trimmed : Text.trimLeft (Text.ofString "fragment" ++ (gap ++ c :: r.take m)) =
      Text.ofString "fragment" ++ (gap ++ c :: r.take m) := rfl
  have behind : Text.trimLeft (gap ++ c :: r.take m) = c :: r.take m := by
    rw [Text.trimLeft, List.dropWhile_append_of_pos blanks,
      List.dropWhile_cons_of_neg (by simp [solid])]
  rw [declaredName?, trimmed]
  simp only [Parts.dropPrefix_append, behind]
  by_cases apart : gap = []
  · subst apart
    simp [solid]
  · have spaced : (gap ++ c :: r.take m).head?.any CodePoint.isBlank = true := by
      cases gap with
      | nil => exact absurd rfl apart
      | cons d gap => simpa using blanks d List.mem_cons_self
    by_cases start : c.isNameStart = true
    · have run := piece_of_start start r
      rw [found] at run
      cases run
      have name : (r.take m).takeWhile CodePoint.isNameContinue =
          r.take (r.takeWhile CodePoint.isNameContinue).length := by
        rw [← List.take_takeWhile, List.take_of_length_le (within rfl)]
        exact List.prefix_iff_eq_take.mp (List.takeWhile_prefix _)
      simp only [spaced, start, name, Bool.and_self, if_true, apart, ne_eq, not_false_eq_true,
        and_self]
    · rw [if_neg (by simp [start]), if_neg fun h => start ((piece_name found).mp h.2)]

theorem Fragment.nameOf_declared {v v' : Text} (same : declaredName? v = declaredName? v')
    (name : Text) : nameOf v = .ok name ↔ nameOf v' = .ok name := by
  rw [nameOf, nameOf, same]
  split
  · split <;> simp
  · simp

namespace Parts

/-! ## Regions that are open -/

theorem openedBy?_fragment {l : Lexeme} (h : Region.openedBy? l = some .fragment) :
    l.text = Text.ofString "fragment" := by
  unfold Region.openedBy? Region.ofKeyword? at h
  grind

section

variable {t : Text} {w : Walk} {ss : List Stretch} {before inside rest : List Lexeme}
  {opener : Lexeme} {c : Nat}

/-- A name that ends before an offset is there as a whole up to it. -/
theorem name_within {l : Lexeme} {d : CodePoint} {r : Text} {n e : Nat}
    (piece : Piece.of d r = .lexeme l.kind n) (text : l.text = d :: r.take n)
    (before : l = brace e ∨ l.stop ≤ e) (isName : l.kind = .name) : n ≤ e - l.start := by
  have run := piece_of_start ((piece_name piece).mp isName) r
  rw [piece] at run
  injection run with _ size
  have whole : n ≤ r.length := size ▸ (List.takeWhile_sublist _).length_le
  have long : l.stop = l.start + (n + 1) := by
    rw [Lexeme.stop, text, List.length_cons, List.length_take, Nat.min_eq_left whole]
  obtain rfl | behind := before
  · cases isName
  · omega

/-- From a keyword to behind a closing brace stand the keyword, a gap, and what begins with the
    lexeme behind it. -/
theorem slice_opened {l : Lexeme} {more : List Lexeme} {e : Nat}
    (scanned : (scan t).1 = before ++ opener :: l :: more)
    (keyword : opener.text = Text.ofString "fragment") (among : brace e ∈ l :: more) :
    ∃ gap d r n, (∀ b ∈ gap, b.isBlank = true) ∧ Piece.of d r = .lexeme l.kind n ∧
      l.text = d :: r.take n ∧ (l.kind = .name → n ≤ e - l.start) ∧
      slice t opener.stop l.start = gap ∧
      (slice t opener.start (e + 1)).trim =
        Text.ofString "fragment" ++ (gap ++ d :: r.take (e - l.start)) := by
  have scanned' : (scan t).1 = (before ++ [opener]) ++ l :: more := by simpa using scanned
  obtain ⟨gap, d, r, n, place, blanks, begins, piece, text⟩ :=
    scan_next (scan_behind (t := t) rfl scanned).symm
  have behind : l = brace e ∨ l.stop ≤ e :=
    (List.mem_cons.mp among).imp Eq.symm fun behind => stop_le_start scanned' behind
  have later : l.start ≤ e := by
    obtain rfl | behind := behind
    · exact Nat.le_refl e
    · exact Nat.le_trans (Nat.le_add_right _ _) behind
  have stands : t.drop opener.start = Text.ofString "fragment" ++ (gap ++ d :: r) := by
    rw [drop_start (by rw [scanned]; simp), place, keyword]
  have stop : opener.stop = opener.start + (Text.ofString "fragment").length := by
    rw [Lexeme.stop, keyword]
  have size : e + 1 - opener.start =
      (Text.ofString "fragment").length + (gap.length + (e - l.start + 1)) := by omega
  have cut : slice t opener.start (e + 1) =
      Text.ofString "fragment" ++ (gap ++ d :: r.take (e - l.start)) := by
    rw [slice, List.drop_take, stands, size, List.take_length_add_append,
      List.take_length_add_append, List.take_succ_cons]
  have inText : brace e ∈ (scan t).1 := by
    rw [scanned']
    exact List.mem_append_right _ among
  have trimmed : (slice t opener.start (e + 1)).trim = slice t opener.start (e + 1) := by
    obtain ⟨body, rest', dropped, -, ends⟩ := slice_to_brace (m := opener.start) inText (by omega)
    rw [ends]
    exact trim_cut (d := .char 'f') (dropped.symm.trans stands) (by decide)
  refine ⟨gap, d, r, n, blanks, piece, text, name_within piece text behind, ?_, trimmed.trans cut⟩
  rw [slice, List.drop_take, place, begins, Nat.add_sub_cancel_left, List.take_left]

/-- A fragment is named by the lexeme behind its opener, if by anything. -/
theorem Walk.Open.declared (open_ : w.Open t ss before opener inside)
    (whole : (scan t).1 = before ++ opener :: inside ++ rest) (isFragment : w.region = .fragment)
    (close : w.close = some c) :
    ∃ l more, inside = l :: more ∧
      Fragment.declaredName? (slice t w.start c).trim =
        if slice t opener.stop l.start ≠ [] ∧ l.kind = .name then some l.text else none := by
  obtain ⟨front, e, trail, rfl, rfl, -, -⟩ := open_.closed c close
  have start : w.start = opener.start := by
    rw [open_.start, isFragment]
    rfl
  have keyword : opener.text = Text.ofString "fragment" := by
    refine openedBy?_fragment ?_
    have opens := open_.opens
    rw [isFragment] at opens
    exact opens.resolve_right fun ⟨_, isQuery, _⟩ => by cases isQuery
  obtain ⟨l, more, split⟩ : ∃ l more, front ++ brace e :: trail = l :: more := by
    cases front with
    | nil => exact ⟨_, _, rfl⟩
    | cons l front => exact ⟨_, _, rfl⟩
  have among : brace e ∈ l :: (more ++ rest) := by
    rw [← List.cons_append, ← split]
    simp
  have scanned : (scan t).1 = before ++ opener :: l :: (more ++ rest) := by
    rw [whole, split]
    simp
  obtain ⟨gap, d, r, n, blanks, piece, text, within, between, cut⟩ :=
    slice_opened scanned keyword among
  refine ⟨l, more, split, ?_⟩
  rw [start, cut, between, text, Fragment.declaredName?_lexeme blanks piece within]

end

/-! ## Two walks in step -/

section

variable {t t' : Text}

/-- Do two steps fail together, and is there a relation between their results? -/
def InStep {α β : Type} (R : α → β → Prop) :
    Except DocumentError α → Except DocumentError β → Prop
  | .ok a, .ok b => R a b
  | .error _, .error _ => True
  | _, _ => False

theorem inStep_bind {α β γ δ : Type} {R : α → β → Prop} {S : γ → δ → Prop}
    {x : Except DocumentError α} {y : Except DocumentError β} {f : α → Except DocumentError γ}
    {g : β → Except DocumentError δ} (h : InStep R x y)
    (next : ∀ a b, R a b → InStep S (f a) (g b)) : InStep S (x >>= f) (y >>= g) := by
  cases x with
  | error => cases y with
    | error => trivial
    | ok => exact h.elim
  | ok a => cases y with
    | error => exact h.elim
    | ok b => exact next a b h

/-- What succeeds with the same result, if at all, is in step. -/
theorem inStep_of_ok {α : Type} {x y : Except DocumentError α}
    (same : ∀ a, x = .ok a ↔ y = .ok a) : InStep Eq x y := by
  cases x with
  | error => cases y with
    | error => trivial
    | ok b => cases (same b).mpr rfl
  | ok a =>
      rw [(same a).mp rfl]
      rfl

theorem InStep.succeed {α β : Type} {R : α → β → Prop} {x : Except DocumentError α}
    {y : Except DocumentError β} (h : InStep R x y) : (∃ a, x = .ok a) ↔ ∃ b, y = .ok b := by
  cases x <;> cases y <;> simp_all [InStep]

theorem InStep.map {α β γ δ : Type} {S : γ → δ → Prop} {x : Except DocumentError α}
    {y : Except DocumentError β} {f : α → γ} {g : β → δ}
    (h : InStep (fun a b => S (f a) (g b)) x y) : InStep S (f <$> x) (g <$> y) := by
  cases x <;> cases y <;> exact h

theorem InStep.imp {α β : Type} {R S : α → β → Prop} {x : Except DocumentError α}
    {y : Except DocumentError β} (h : InStep R x y)
    (next : ∀ a b, x = .ok a → y = .ok b → R a b → S a b) : InStep S x y := by
  cases x <;> cases y
  case ok.ok a b => exact next a b rfl rfl h
  all_goals exact h

/-- Do two offsets stand behind the lexemes of the same number? -/
def SameStop (t t' : Text) (c c' : Nat) : Prop :=
  ∃ (j : Nat) (l l' : Lexeme), (scan t).1[j]? = some l ∧ (scan t').1[j]? = some l' ∧
    c = l.stop ∧ c' = l'.stop

/-- Do two stretches of two texts reach from the lexemes of the same number to those of the same
    number? -/
structure SamePlace (t t' : Text) (s s' : Stretch) : Prop where
  region : s'.region = s.region
  opener : ∃ i : Nat, (scan t).1[i]? = some s.opener ∧ (scan t').1[i]? = some s'.opener
  close : SameStop t t' s.close s'.close

/-- Have the parts fragments of the same names? -/
def SameNames (p p' : Parts) : Prop :=
  p'.fragments.map (·.name) = p.fragments.map (·.name)

/-- Are two walks in the same region, and is it open behind stretches at the same places? -/
structure Walk.Paired (t t' : Text) (w w' : Walk) (passed passed' : List Lexeme) : Prop where
  size : passed'.length = passed.length
  depth : w.depth = depthAfter passed
  depth' : w'.depth = depthAfter passed'
  abreast : w.Abreast w'
  close : Option.Rel (SameStop t t') w.close w'.close
  names : SameNames w.parts w'.parts
  place : (w.region = .comment ∧ (w.start = 0 ∧ w.parts = {}) ∧ w'.start = 0 ∧ w'.parts = {}) ∨
    ∃ ss ss' before before' opener opener' inside inside',
      (passed = before ++ opener :: inside ∧ passed' = before' ++ opener' :: inside' ∧
        before'.length = before.length) ∧
      w.Open t ss before opener inside ∧ w'.Open t' ss' before' opener' inside' ∧
      List.Forall₂ (SamePlace t t') ss ss'

theorem MadeOf.noQuery {ss : List Stretch} {upTo : Nat} {p : Parts} (made : MadeOf t upTo ss p) :
    p.query = [] ↔ ∀ s ∈ ss, s.region ≠ .query := by
  have filtered : ss.filter (·.region = .query) = [] ↔ ∀ s ∈ ss, s.region ≠ .query := by
    simp [List.filter_eq_nil_iff]
  rw [← filtered]
  obtain ⟨none_, empty⟩ | ⟨s, one, -, some_⟩ := made.query
  · simp [none_, empty]
  · simp [one, some_]

theorem samePlace_regions {ss ss' : List Stretch} (h : List.Forall₂ (SamePlace t t') ss ss') :
    (∀ s ∈ ss, s.region ≠ .query) ↔ ∀ s ∈ ss', s.region ≠ .query := by
  induction h with
  | nil => rfl
  | cons first rest ih => simp only [List.forall_mem_cons, first.region, ih]

/-- Fragments that are open at the same places have the same name, if any. -/
theorem paired_fragment {w w' : Walk} {ss ss' : List Stretch} {c c' : Nat}
    {before before' inside inside' rest rest' : List Lexeme} {opener opener' : Lexeme}
    (same : SameOutline t t') (size : before'.length = before.length)
    (whole : (scan t).1 = before ++ opener :: inside ++ rest)
    (whole' : (scan t').1 = before' ++ opener' :: inside' ++ rest')
    (open_ : w.Open t ss before opener inside) (open' : w'.Open t' ss' before' opener' inside')
    (isFragment : w.region = .fragment) (isFragment' : w'.region = .fragment)
    (close : w.close = some c) (close' : w'.close = some c') (name : Text) :
    Fragment.nameOf (slice t w.start c).trim = .ok name ↔
      Fragment.nameOf (slice t' w'.start c').trim = .ok name := by
  obtain ⟨l, more, rfl, declared⟩ := open_.declared whole isFragment close
  obtain ⟨l', more', rfl, declared'⟩ := open'.declared whole' isFragment' close'
  have split : (scan t).1 = before ++ opener :: l :: (more ++ rest) := by simpa using whole
  have split' : (scan t').1 = before' ++ opener' :: l' :: (more' ++ rest') := by simpa using whole'
  have blanks := same.between split split' size
  have next : (scan t).1 = (before ++ [opener]) ++ l :: (more ++ rest) := by simpa using split
  have next' : (scan t').1 = (before' ++ [opener']) ++ l' :: (more' ++ rest') := by
    simpa using split'
  have similar := same.at next next' (by simp [size])
  refine Fragment.nameOf_declared ?_ name
  rw [declared, declared', blanks, similar.1]
  by_cases isName : l.kind = .name
  · have text : l'.text = l.text := by
      obtain ⟨-, comment | string | text⟩ := similar
      · simp [isName] at comment
      · simp [isName] at string
      · exact text
    rw [text]
  · rw [if_neg fun h => isName h.2, if_neg fun h => isName h.2]

/-- What two walks have open is complete in both texts, or in neither. -/
theorem Walk.Paired.flush {w w' : Walk} {passed passed' rest rest' : List Lexeme}
    (same : SameOutline t t') (paired : w.Paired t t' w' passed passed')
    (whole : (scan t).1 = passed ++ rest) (whole' : (scan t').1 = passed' ++ rest')
    (stop stop' : Nat) : InStep SameNames (w.flush t stop) (w'.flush t' stop') := by
  obtain ⟨-, -, -, ⟨region, -, -⟩, closes, names, place⟩ := paired
  obtain ⟨inComment, -⟩ | ⟨ss, ss', before, before', opener, opener', inside, inside',
    ⟨rfl, rfl, size⟩, open_, open', places⟩ := place
  · rw [Walk.flush, Walk.flush, region, inComment]
    exact names
  have opened := open_.notComment
  generalize close : w.close = stands at closes
  generalize close' : w'.close = stands' at closes
  cases closes with
  | none =>
      simp only [Walk.flush, region, close, close']
      trivial
  | some =>
      cases isRegion : w.region with
      | comment => exact absurd isRegion opened
      | vars =>
          simp only [Walk.flush, region, isRegion, close, close']
          exact names
      | query =>
          have none_ : w.parts.query = [] ↔ w'.parts.query = [] :=
            open_.made.noQuery.trans ((samePlace_regions places).trans open'.made.noQuery.symm)
          simp only [Walk.flush, region, isRegion, close, close', none_]
          split
          · exact names
          · trivial
      | fragment =>
          have named := paired_fragment same size whole whole' open_ open' isRegion
            (region.trans isRegion) close close'
          simp only [Walk.flush, region, isRegion, close, close']
          refine inStep_bind (inStep_of_ok named) fun name name' same_ => ?_
          simp only [pure, Except.pure, InStep, SameNames, List.map_append, same_]
          exact congrArg (· ++ _) names

theorem pass_close (w : Walk) (l : Lexeme) :
    (w.pass l).close = if l.isMark '}' then some l.stop else w.close := by
  unfold Walk.pass
  split
  next comment => simp [isMark, comment]
  next => rfl

section

variable {w w' : Walk} {passed passed' rest rest' : List Lexeme} {l l' : Lexeme}

/-- Similar lexemes that open nothing leave two walks in step. -/
theorem Walk.Paired.pass (paired : w.Paired t t' w' passed passed') (similar : Similar l l')
    (whole : (scan t).1 = passed ++ l :: rest) (whole' : (scan t').1 = passed' ++ l' :: rest') :
    (w.pass l).Paired t t' (w'.pass l') (passed ++ [l]) (passed' ++ [l']) := by
  obtain ⟨size, depth, depth', abreast, close, names, place⟩ := paired
  obtain ⟨parts, region, start⟩ := foldl_pass w [l]
  obtain ⟨parts', -, start'⟩ := foldl_pass w' [l']
  simp only [List.foldl_cons, List.foldl_nil] at parts region start parts' start'
  refine ⟨by simp [size], depthAfter_pass depth l, depthAfter_pass depth' l',
    pass_similar abreast similar, ?_, by rwa [parts, parts'], ?_⟩
  · rw [pass_close, pass_close, similar.isMark]
    split
    · exact .some ⟨passed.length, l, l', by simp [whole], by simp [whole', ← size], rfl, rfl⟩
    · exact close
  · rw [region, start, start', parts, parts']
    obtain inComment | ⟨ss, ss', before, before', opener, opener', inside, inside',
      ⟨rfl, rfl, sizes⟩, open_, open', places⟩ := place
    · exact .inl inComment
    · exact .inr ⟨ss, ss', before, before', opener, opener', inside ++ [l], inside' ++ [l'],
        ⟨by simp, by simp, sizes⟩, open_.pass l, open'.pass l', places⟩

/-- Similar lexemes that open a region leave two walks in step. -/
theorem Walk.Paired.enter {region : Region} {p p' : Parts}
    (paired : w.Paired t t' w' passed passed') (similar : Similar l l')
    (whole : (scan t).1 = passed ++ l :: rest) (whole' : (scan t').1 = passed' ++ l' :: rest')
    (opens : w.opened? l = some region) (opens' : w'.opened? l' = some region)
    (flushed : w.flush t l.start = .ok p) (flushed' : w'.flush t' l'.start = .ok p')
    (named : SameNames p p') :
    (w.entering p region l).Paired t t' (w'.entering p' region l') (passed ++ [l])
      (passed' ++ [l']) := by
  obtain ⟨size, depth, depth', abreast, close, -, place⟩ := paired
  have top := (opened?_first opens).2
  have top' := (opened?_first opens').2
  have noBrace := opened?_noBrace opens
  have noBrace' := opened?_noBrace opens'
  have abreast' : (w.entering p region l).Abreast (w'.entering p' region l') := by
    refine ⟨rfl, ?_, noBrace'.trans noBrace.symm⟩
    simp [Walk.entering, Walk.count, top, top', isOpening, isClosing, similar.isMark]
  rw [depth] at top
  rw [depth'] at top'
  refine ⟨by simp [size], entering_depth depth p region l, entering_depth depth' p' region l',
    abreast', ?_, named, .inr ?_⟩
  · simp only [Walk.entering, Walk.count, noBrace, noBrace', Bool.false_eq_true, if_false]
    exact .none
  · obtain ⟨inComment, ⟨start, parts⟩, start', parts'⟩ | ⟨ss, ss', before, before', opener, opener',
      inside, inside', ⟨rfl, rfl, sizes⟩, open_, open', places⟩ := place
    · exact ⟨[], [], passed, passed', l, l', [], [], ⟨rfl, rfl, size⟩,
        enter_first top inComment start parts opens flushed,
        enter_first top' (abreast.1.trans inComment) start' parts' opens' flushed', .nil⟩
    · obtain ⟨c, closed, entered⟩ := open_.enter whole top opens flushed
      obtain ⟨c', closed', entered'⟩ := open'.enter whole' top' opens' flushed'
      rw [closed, closed'] at close
      cases close with
      | some stop =>
          refine ⟨_, _, before ++ opener :: inside, before' ++ opener' :: inside', l, l', [], [],
            ⟨rfl, rfl, size⟩, entered, entered', ?_⟩
          refine List.rel_append places (.cons ⟨abreast.1, ⟨before.length, ?_, ?_⟩, stop⟩ .nil)
          · simp [whole]
          · simp [whole', ← sizes]

/-- Similar lexemes keep two walks in step. -/
theorem step_paired (same : SameOutline t t') (paired : w.Paired t t' w' passed passed')
    (whole : (scan t).1 = passed ++ l :: rest) (whole' : (scan t').1 = passed' ++ l' :: rest') :
    InStep (fun v v' => v.Paired t t' v' (passed ++ [l]) (passed' ++ [l'])) (w.step t l)
      (w'.step t' l') := by
  have similar := same.at whole whole' paired.size
  have opens_ := opened?_similar paired.abreast similar
  by_cases quiet : l.kind = .comment ∨ w.opened? l = none
  · rw [quiet_step t quiet, quiet_step t' (by rwa [similar.1, opens_])]
    exact paired.pass similar whole whole'
  · obtain ⟨noComment, opens⟩ := not_or.mp quiet
    obtain ⟨region, opens⟩ := Option.ne_none_iff_exists'.mp opens
    rw [step_entering noComment opens,
      step_entering (similar.1 ▸ noComment) (opens_.trans opens)]
    have both := paired.flush same whole whole' l.start l'.start
    exact .map (both.imp fun p p' flushed flushed' named =>
      paired.enter similar whole whole' opens (opens_.trans opens) flushed flushed' named)

/-- Two walks over texts of the same outline stay in step to the end. -/
theorem run_paired (same : SameOutline t t') (paired : w.Paired t t' w' passed passed')
    (whole : (scan t).1 = passed ++ rest) (whole' : (scan t').1 = passed' ++ rest') :
    InStep (fun v v' => v.Paired t t' v' (scan t).1 (scan t').1) (rest.foldlM (Walk.step t) w)
      (rest'.foldlM (Walk.step t') w') := by
  have sizes : rest'.length = rest.length := by
    have long := same.similar.length_eq
    rw [whole, whole', List.length_append, List.length_append] at long
    have := paired.size
    omega
  induction rest generalizing rest' w w' passed passed' with
  | nil =>
      obtain rfl := List.length_eq_zero_iff.mp sizes
      rw [whole, whole', List.append_nil, List.append_nil]
      exact paired
  | cons l rest ih =>
      cases rest' with
      | nil => cases sizes
      | cons l' rest' =>
          rw [List.foldlM_cons, List.foldlM_cons]
          refine inStep_bind (step_paired same paired whole whole') fun v v' next => ?_
          exact ih next (by simp [whole]) (by simp [whole']) (Nat.succ.inj sizes)

end

/-- The parts that two walks in step have in the end stand at the same places. -/
theorem Walk.Paired.finish {w w' : Walk} {p p' : Parts}
    (paired : w.Paired t t' w' (scan t).1 (scan t').1) (flushed : w.flush t t.length = .ok p)
    (flushed' : w'.flush t' t'.length = .ok p') :
    ∃ ss ss', Divides t t.length ss ∧ MadeOf t t.length ss p ∧ Divides t' t'.length ss' ∧
      MadeOf t' t'.length ss' p' ∧ List.Forall₂ (SamePlace t t') ss ss' := by
  obtain ⟨size, -, -, abreast, close, -, place⟩ := paired
  obtain ⟨inComment, ⟨begins, parts⟩, begins', parts'⟩ | ⟨ss, ss', before, before', opener, opener',
    inside, inside', ⟨whole, whole', sizes⟩, open_, open', places⟩ := place
  · obtain ⟨divides, made⟩ := unopened_finish inComment begins parts flushed
    obtain ⟨divides', made'⟩ :=
      unopened_finish (abreast.1.trans inComment) begins' parts' flushed'
    exact ⟨[], [], divides, made, divides', made', .nil⟩
  · obtain ⟨c, closed, divides, made⟩ := open_.finish whole flushed
    obtain ⟨c', closed', divides', made'⟩ := open'.finish whole' flushed'
    rw [closed, closed'] at close
    cases close with
    | some stop =>
        refine ⟨_, _, divides, made, divides', made', List.rel_append places (.cons ?_ .nil)⟩
        exact ⟨abreast.1, ⟨before.length, by simp [whole], by simp [whole', ← sizes]⟩, stop⟩

/-- Two texts of the same outline are both cut into parts or both refused, and if they are cut, then
    at the same places among their lexemes, into regions of the same kinds and fragments of the same
    names. -/
theorem ofText_outline (same : SameOutline t t') :
    ((∃ p, ofText t = .ok p) ↔ ∃ p', ofText t' = .ok p') ∧
      ∀ p p', ofText t = .ok p → ofText t' = .ok p' →
        SameNames p p' ∧ ∃ ss ss', Divides t t.length ss ∧ MadeOf t t.length ss p ∧
          Divides t' t'.length ss' ∧ MadeOf t' t'.length ss' p' ∧
          List.Forall₂ (SamePlace t t') ss ss' := by
  have begin_ : Walk.Paired t t' {} {} [] [] :=
    ⟨rfl, rfl, rfl, ⟨rfl, rfl, rfl⟩, .none, rfl, .inl ⟨rfl, ⟨rfl, rfl⟩, rfl, rfl⟩⟩
  have run := run_paired same begin_ (List.nil_append _).symm (List.nil_append _).symm
  have both : InStep (fun p p' => SameNames p p' ∧ ∃ ss ss', Divides t t.length ss ∧
      MadeOf t t.length ss p ∧ Divides t' t'.length ss' ∧ MadeOf t' t'.length ss' p' ∧
      List.Forall₂ (SamePlace t t') ss ss') (ofText t) (ofText t') := by
    refine inStep_bind run fun w w' paired => ?_
    have ends := same.complete
    rw [scan, scan] at ends
    have flushes := paired.flush same (List.append_nil _).symm (List.append_nil _).symm t.length
      t'.length
    split
    next _ failure =>
      split
      next => trivial
      next complete => simp [failure, complete] at ends
    next complete =>
      split
      next _ failure => simp [failure, complete] at ends
      next => exact flushes.imp fun p p' flushed flushed' named =>
        ⟨named, paired.finish flushed flushed'⟩
  refine ⟨both.succeed, fun p p' ok ok' => ?_⟩
  rw [ok, ok'] at both
  exact both

/-- Keywords and braces in comments and strings neither open nor close anything. -/
theorem ofText_outline_of_disguise :
    let t := Text.ofString
      "# a\nquery Q \x7b a(b: \"c\") \x7d /* d */ fragment F on T \x7b e \x7d"
    let t' := Text.ofString
      "// \x7b\nquery Q \x7b a(b: \"\"\"\x7d query \x7b\"\"\") \x7d /**/ fragment F on T \x7b e \x7d"
    ∃ p p', ofText t = .ok p ∧ ofText t' = .ok p' ∧ SameNames p p' ∧
      ∃ ss ss', Divides t t.length ss ∧ MadeOf t t.length ss p ∧ Divides t' t'.length ss' ∧
        MadeOf t' t'.length ss' p' ∧ List.Forall₂ (SamePlace t t') ss ss' := by
  intro t t'
  have same : SameOutline t t' := ⟨by decide +kernel, by decide +kernel, by decide +kernel⟩
  have cut : ofText t = .ok
      { comment := "# a"
        query := "query Q \x7b a(b: \"c\") \x7d"
        fragments := [⟨"F", "fragment F on T \x7b e \x7d"⟩] } := except_ok (by decide +kernel)
  obtain ⟨p', cut'⟩ := (ofText_outline same).1.mp ⟨_, cut⟩
  exact ⟨_, p', cut, cut', (ofText_outline same).2 _ p' cut cut'⟩

end

end Parts

end ApprovedOps
