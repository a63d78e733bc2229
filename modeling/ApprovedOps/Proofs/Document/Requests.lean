import ApprovedOps.Proofs.Document.Tokens

/-! # Definitions in a document

The walk over the lexemes of a document goes through each operation and each fragment of the grammar
from its keyword to the brace that closes it. Whether the keyword opens a part depends on what stands
in front of it: behind a closing brace only comments may.
-/

namespace ApprovedOps

open Lexeme GraphQL

namespace GraphQL

/-! ## Lexemes in order -/

variable {ts us : List Token} {ls : List Lexeme} {t : Token}

theorem aligned_nil (h : Aligned [] ls) : ∀ l ∈ ls, Silent l := by
  generalize none_ : ([] : List Token) = ts at h
  induction h with
  | nil => exact List.forall_mem_nil _
  | silent silent _ ih => exact List.forall_mem_cons.mpr ⟨silent, ih none_⟩
  | same | dots => cases none_

theorem aligned_append (h : Aligned (ts ++ us) ls) :
    ∃ ls₁ ls₂, ls = ls₁ ++ ls₂ ∧ Aligned ts ls₁ ∧ Aligned us ls₂ := by
  generalize whole : ts ++ us = ts' at h
  induction h generalizing ts with
  | nil =>
      obtain ⟨rfl, rfl⟩ := List.append_eq_nil_iff.mp whole
      exact ⟨[], [], rfl, .nil, .nil⟩
  | @silent ts' l ls silent rest ih =>
      cases ts with
      | nil =>
          obtain rfl : us = ts' := whole
          exact ⟨[], l :: ls, rfl, .nil, .silent silent rest⟩
      | cons t ts =>
          obtain ⟨ls₁, ls₂, rfl, first, second⟩ := ih whole
          exact ⟨l :: ls₁, ls₂, rfl, .silent silent first, second⟩
  | @same t ts' l ls same rest ih =>
      cases ts with
      | nil =>
          obtain rfl : us = t :: ts' := whole
          exact ⟨[], l :: ls, rfl, .nil, .same same rest⟩
      | cons t ts =>
          obtain ⟨rfl, more⟩ := List.cons.inj whole
          obtain ⟨ls₁, ls₂, rfl, first, second⟩ := ih more
          exact ⟨l :: ls₁, ls₂, rfl, .same same first, second⟩
  | @dots t ts' ls dots rest ih =>
      cases ts with
      | nil =>
          obtain rfl : us = t :: ts' := whole
          exact ⟨[], _, rfl, .nil, .dots dots rest⟩
      | cons t ts =>
          obtain ⟨rfl, more⟩ := List.cons.inj whole
          obtain ⟨ls₁, ls₂, rfl, first, second⟩ := ih more
          exact ⟨_, ls₂, rfl, .dots dots first, second⟩

theorem aligned_silent {gap : List Lexeme} (h : Aligned ts ls) (silent : ∀ l ∈ gap, Silent l) :
    Aligned ts (ls ++ gap) := by
  induction h with
  | nil =>
      induction gap with
      | nil => exact .nil
      | cons l gap ih =>
          obtain ⟨here, later⟩ := List.forall_mem_cons.mp silent
          exact .silent here (ih later)
  | silent here _ ih => exact .silent here ih
  | same same _ ih => exact .same same ih
  | dots dots _ ih => exact .dots dots ih

theorem aligned_snoc {l : Lexeme} (h : Aligned ts ls) (same : t.Same l) :
    Aligned (ts ++ [t]) (ls ++ [l]) := by
  induction h with
  | nil => exact .same same .nil
  | silent here _ ih => exact .silent here ih
  | same here _ ih => exact .same here ih
  | dots dots _ ih => exact .dots dots ih

/-- A token that is not three dots has its lexeme, behind silent ones. -/
theorem aligned_cons (plain : t.kind ≠ .mark (Text.ofString "...")) (h : Aligned (t :: ts) ls) :
    ∃ gap l ls', ls = gap ++ l :: ls' ∧ (∀ x ∈ gap, Silent x) ∧ t.Same l ∧ Aligned ts ls' := by
  generalize whole : t :: ts = ts' at h
  induction h with
  | nil => cases whole
  | @silent _ l ls silent _ ih =>
      obtain ⟨gap, m, ls', rfl, silent', same, rest⟩ := ih whole
      exact ⟨l :: gap, m, ls', rfl, List.forall_mem_cons.mpr ⟨silent, silent'⟩, same, rest⟩
  | @same _ _ l ls same rest =>
      obtain ⟨rfl, rfl⟩ := List.cons.inj whole
      exact ⟨[], l, ls, rfl, List.forall_mem_nil _, same, rest⟩
  | dots dots =>
      obtain ⟨rfl, -⟩ := List.cons.inj whole
      exact absurd dots plain

/-! ## Brackets -/

theorem silent_nest {l : Lexeme} (silent : Silent l) (due : List Char) :
    Parts.nest due l = some due ∧ l.isMark '}' = false := by
  obtain ⟨kind, text, start⟩ := l
  have other : kind ≠ .mark ∨ text = [.char ','] ∨ text = [.char '\uFEFF'] := by
    obtain comment | mark | mark := silent
    · exact .inl fun isMark => by cases comment.symm.trans isMark
    · simp only [isMark, Bool.and_eq_true, decide_eq_true_eq] at mark
      exact .inr (.inl mark.2)
    · simp only [isMark, Bool.and_eq_true, decide_eq_true_eq] at mark
      exact .inr (.inr mark.2)
  obtain other | rfl | rfl := other <;> simp_all [Parts.nest, Parts.isClosing, isMark]

theorem same_nest {l : Lexeme} {due due' : List Char} (same : t.Same l)
    (h : t.nest due = some due') :
    Parts.nest due l = some due' ∧ (l.isMark '}' = true → due' ≠ []) := by
  have closes : Parts.isClosing l = t.kind.closes := by
    rw [Bool.eq_iff_iff]
    simp [Parts.isClosing, TokenKind.closes, same.mark]
  have marks (c : Char) : l.isMark c = decide (t.kind = Reader.mark c) := by
    rw [Bool.eq_iff_iff, same.mark, decide_eq_true_iff]
  unfold Parts.nest
  rw [closes]
  simp only [marks, decide_eq_true_eq]
  unfold Token.nest at h
  split at h
  next brace => exact ⟨by rwa [if_pos brace], fun _ => by cases h; exact List.cons_ne_nil _ _⟩
  next brace =>
    rw [if_neg brace]
    split at h
    next paren => exact ⟨by rwa [if_pos paren], fun _ => by cases h; exact List.cons_ne_nil _ _⟩
    next paren =>
      rw [if_neg paren]
      split at h
      next bracket =>
        exact ⟨by rwa [if_pos bracket], fun _ => by cases h; exact List.cons_ne_nil _ _⟩
      next bracket =>
        rw [if_neg bracket]
        split at h
        next closing =>
          rw [if_pos closing]
          cases due with
          | nil => cases h
          | cons c rest =>
              dsimp only at h ⊢
              split at h
              next here =>
                cases h
                refine ⟨if_pos here.1, fun last => here.2 ?_⟩
                simpa [Reader.mark] using here.1.symm.trans last
              next => cases h
        next plain =>
          rw [if_neg plain]
          refine ⟨h, fun last => absurd ?_ plain⟩
          rw [last]
          rfl

theorem dots_nest {due due' : List Char} (dots : t.kind = .mark (Text.ofString "..."))
    (h : t.nest due = some due') : due' = due := by
  rw [Token.nest.eq_def, dots] at h
  exact (Option.some.inj h).symm

end GraphQL

namespace Parts

/-! ## The walk through a definition -/

variable {ts : List Token} {ls : List Lexeme} {t : Text} {w : Walk} {due due' : List Char}

/-- Nothing opens inside a definition. -/
theorem run_aligned (inside : w.Inside due) (nested : ts.foldlM Token.nest due = some due')
    (aligned : Aligned ts ls) :
    ∃ w', ls.foldlM (Walk.step t) w = .ok w' ∧ w'.Inside due' ∧ w.Alike w' := by
  -- One lexeme that leaves other brackets due, and the rest behind it.
  have onward {w : Walk} {due due₁ : List Char} {l : Lexeme} {ls : List Lexeme}
      (inside : w.Inside due) (nested : nest due l = some due₁ ∧ (l.isMark '}' = true → due₁ ≠ []))
      (rest : ∀ {w : Walk}, w.Inside due₁ →
        ∃ w', ls.foldlM (Walk.step t) w = .ok w' ∧ w'.Inside due' ∧ w.Alike w') :
      ∃ w', (l :: ls).foldlM (Walk.step t) w = .ok w' ∧ w'.Inside due' ∧ w.Alike w' := by
    obtain ⟨w₁, step, inside₁, alike₁⟩ := step_inside t inside nested.1 nested.2
    obtain ⟨w', run, inside', alike'⟩ := rest inside₁
    refine ⟨w', ?_, inside', alike'.1.trans alike₁.1, alike'.2.1.trans alike₁.2.1,
      alike'.2.2.trans alike₁.2.2⟩
    rw [List.foldlM_cons, step]
    exact run
  induction aligned generalizing w due with
  | nil =>
      cases nested
      exact ⟨w, rfl, inside, rfl, rfl, rfl⟩
  | silent silent _ ih =>
      obtain ⟨same, noBrace⟩ := silent_nest silent due
      exact onward inside ⟨same, by simp [noBrace]⟩ fun inside => ih inside nested
  | same same _ ih =>
      obtain ⟨due₁, first, rest⟩ := Option.bind_eq_some_iff.mp nested
      exact onward inside (same_nest same first) fun inside => ih inside rest
  | dots dots _ ih =>
      obtain ⟨due₁, first, rest⟩ := Option.bind_eq_some_iff.mp nested
      obtain rfl := dots_nest dots first
      have quiet (k : Nat) : nest due₁ (dot k) = some due₁ ∧ ((dot k).isMark '}' = true → due₁ ≠ []) :=
        ⟨rfl, nofun⟩
      exact onward inside (quiet _) fun inside => onward inside (quiet _) fun inside =>
        onward inside (quiet _) fun inside => ih inside rest

/-- Silent lexemes open nothing, but behind any but a comment no brace was the last lexeme. -/
theorem step_silent {l : Lexeme} (silent : Silent l) (w : Walk) :
    w.step t l = .ok { w with afterBrace := w.afterBrace && l.kind = .comment } := by
  by_cases comment : l.kind = .comment
  · rw [Walk.step, if_pos comment]
    simp [comment]
  · obtain ⟨kind, text, start⟩ := l
    have mark : kind = .mark ∧ (text = [.char ','] ∨ text = [.char '\uFEFF']) := by
      obtain mark | mark := silent.resolve_left comment
      · simp only [isMark, Bool.and_eq_true, decide_eq_true_eq] at mark
        exact ⟨mark.1, .inl mark.2⟩
      · simp only [isMark, Bool.and_eq_true, decide_eq_true_eq] at mark
        exact ⟨mark.1, .inr mark.2⟩
    obtain ⟨rfl, other⟩ := mark
    have nothing : w.opened? ⟨.mark, text, start⟩ = none := by
      unfold Walk.opened? Region.openedBy?
      obtain rfl | rfl := other <;> simp [isMark]
    rw [quiet_step t (.inr nothing)]
    obtain rfl | rfl := other <;>
      simp [Walk.pass, Walk.count, isOpening, isClosing, isMark]

theorem run_silent {gap : List Lexeme} (silent : ∀ l ∈ gap, Silent l) (w : Walk) :
    gap.foldlM (Walk.step t) w =
      .ok { w with afterBrace := w.afterBrace && gap.all (·.kind = .comment) } := by
  induction gap generalizing w with
  | nil => simp [pure, Except.pure]
  | cons l gap ih =>
      obtain ⟨here, later⟩ := List.forall_mem_cons.mp silent
      rw [List.foldlM_cons, step_silent here]
      refine (ih later _).trans ?_
      simp [Bool.and_assoc]

/-- Are these the lexemes of the tokens: those in front of the first one, the first, those between,
    and the last? -/
structure Placed (ts : List Token) (gap : List Lexeme) (opener : Lexeme) (inside : List Lexeme)
    (close : Lexeme) : Prop where
  silent : ∀ l ∈ gap, Silent l
  tokens : ∃ first mid last, ts = first :: (mid ++ [last]) ∧ first.Same opener ∧
    Aligned mid inside ∧ last.Same close

/-- The lexemes of the tokens of a definition. -/
theorem placed_next {us : List Token} {first second : Token} {rest : List Token}
    (aligned : Aligned (first :: second :: rest ++ us) ls) (whole : Whole (first :: second :: rest))
    (plain : first.kind ≠ .mark (Text.ofString "...")) :
    ∃ gap opener inside close ls', ls = gap ++ opener :: (inside ++ close :: ls') ∧
      Placed (first :: second :: rest) gap opener inside close ∧ Aligned us ls' := by
  obtain ⟨inner, last, split, -, isBrace⟩ := whole
  cases inner with
  | nil => cases split
  | cons first' mid =>
      obtain ⟨rfl, more⟩ := List.cons.inj split
      change second :: rest = mid ++ [last] at more
      rw [List.cons_append, more, List.append_assoc] at aligned
      obtain ⟨gap, opener, ls₁, rfl, silent, same, aligned⟩ := aligned_cons plain aligned
      obtain ⟨ls₂, ls₃, rfl, middle, aligned⟩ := aligned_append aligned
      obtain ⟨gap', close, ls', rfl, silent', same', aligned⟩ :=
        aligned_cons (by rw [isBrace]; decide) aligned
      refine ⟨gap, opener, ls₂ ++ gap', close, ls', by simp, ⟨silent, first, mid, last, ?_, same, ?_,
        same'⟩, aligned⟩
      · rw [more]
      · exact aligned_silent middle silent'

/-- The region of an operation or a fragment. -/
def regionOf : Definition → Region
  | .operation _ => .query
  | _ => .fragment

theorem regionOf_opened (d : Definition) : regionOf d ≠ .comment ∧ regionOf d ≠ .vars := by
  cases d <;> simp [regionOf]

theorem leads_keyword {d : Definition} (leads : d.Leads ts) :
    ∃ first rest, ts = first :: rest ∧ first.kind = .name ∧
      Region.ofKeyword? first.value = some (regionOf d) := by
  cases d with
  | operation o =>
      obtain ⟨kind, first, rest, rfl, word⟩ := leads
      obtain ⟨isName, value⟩ := Prod.mk.inj word
      refine ⟨first, rest, rfl, isName, ?_⟩
      cases kind <;> exact congrArg Region.ofKeyword? value
  | fragment =>
      obtain ⟨-, first, second, rest, rfl, word, -⟩ := leads
      obtain ⟨isName, value⟩ := Prod.mk.inj word
      exact ⟨first, _, rfl, isName, congrArg Region.ofKeyword? value⟩
  | _ => exact leads.elim

section

variable {gap inside : List Lexeme} {opener close : Lexeme} {d : Definition}

theorem Placed.keyword (placed : Placed ts gap opener inside close) (leads : d.Leads ts) :
    opener.kind = .name ∧ Region.openedBy? opener = some (regionOf d) := by
  obtain ⟨first, mid, last, rfl, same, -⟩ := placed.tokens
  obtain ⟨_, _, split, isName, keyword⟩ := leads_keyword leads
  obtain ⟨rfl, -⟩ := List.cons.inj split
  have kind := same.name.mpr isName
  exact ⟨kind, by rw [Region.openedBy?, if_pos kind, same.text isName, keyword]⟩

theorem Placed.nested (placed : Placed ts gap opener inside close) (whole : Whole ts) :
    ∃ first mid, first.Same opener ∧ Aligned mid inside ∧ ts.head? = some first ∧
      (first :: mid).foldlM Token.nest [] = some ['}'] ∧ close = brace close.start := by
  obtain ⟨first, mid, last, rfl, same, aligned, same'⟩ := placed.tokens
  obtain ⟨inner, last', split, nested, isBrace⟩ := whole
  have same_ : (first :: mid) ++ [last] = inner ++ [last'] := split
  obtain ⟨rfl, ends⟩ := List.append_inj' same_ rfl
  obtain rfl := List.singleton_inj.mp ends
  exact ⟨first, mid, same, aligned, rfl, nested, isMark_brace ((same'.mark _).mpr isBrace)⟩

/-- From the keyword on the walk goes to the last brace. -/
theorem Placed.run (placed : Placed ts gap opener inside close) (whole : Whole ts)
    (leads : d.Leads ts) (within : w.Inside []) :
    (inside ++ [close]).foldlM (Walk.step t) w =
      .ok { w with close := some close.stop, depth := 0, afterBrace := true } := by
  obtain ⟨first, mid, same, aligned, head, nested, isBrace⟩ := placed.nested whole
  obtain ⟨_, _, rfl, isName, -⟩ := leads_keyword leads
  obtain rfl := Option.some.inj head
  obtain ⟨due, begins, nested⟩ := Option.bind_eq_some_iff.mp nested
  obtain rfl : due = [] := by
    rw [Token.nest.eq_def, isName] at begins
    exact (Option.some.inj begins).symm
  obtain ⟨w₁, run₁, inside₁, parts₁, region₁, start₁⟩ := run_aligned (t := t) within nested aligned
  obtain ⟨w₂, step₂, ⟨parts₂, region₂, start₂⟩, closed, depth, afterBrace⟩ :=
    last_step t inside₁ close.start 0 rfl
  have same₂ : (brace close.start).shift 0 = close := by
    rw [isBrace]
    exact congrArg brace (Nat.zero_add _)
  rw [same₂] at step₂
  have final : w₂ = { w with close := some close.stop, depth := 0, afterBrace := true } := by
    obtain ⟨p, r, s, c, k, b⟩ := w₂
    simp only at parts₂ region₂ start₂ closed depth afterBrace
    rw [parts₂, parts₁, region₂, region₁, start₂, start₁, closed, depth, afterBrace, isBrace]
    simp [Lexeme.stop, brace]
  rw [List.foldlM_append, run₁]
  change [close].foldlM (Walk.step t) w₁ = _
  rw [List.foldlM_cons, step₂, ← final]
  rfl

/-- Where a keyword can open a part, the definition is one. -/
theorem Placed.run_opened (placed : Placed ts gap opener inside close) (whole : Whole ts)
    (leads : d.Leads ts) (top : w.depth = 0)
    (opens : w.region = .comment ∨ w.afterBrace = true ∧ ∀ l ∈ gap, l.kind = .comment) :
    (gap ++ opener :: (inside ++ [close])).foldlM (Walk.step t) w =
      (w.flush t opener.start).map fun p =>
        ⟨p, regionOf d, opener.start, some close.stop, 0, true⟩ := by
  obtain ⟨kind, keyword⟩ := placed.keyword leads
  have noMark (c : Char) : opener.isMark c = false := by simp [isMark, kind]
  have open_ := regionOf_opened d
  obtain ⟨w₁, run₁⟩ : ∃ w₁ : Walk, w₁ =
    { w with afterBrace := w.afterBrace && gap.all (·.kind = .comment) } := ⟨_, rfl⟩
  have between : w₁.Between := by
    subst run₁
    refine ⟨top, opens.imp_right fun both => ?_⟩
    simpa using both
  have flush : w₁.flush t opener.start = w.flush t opener.start := by
    subst run₁
    rfl
  have step := step_entering (t := t) (by rw [kind]; decide) (opened?_keyword between keyword)
  rw [List.foldlM_append, run_silent placed.silent, ← run₁]
  change (opener :: (inside ++ [close])).foldlM (Walk.step t) w₁ = _
  rw [List.foldlM_cons, step, flush]
  cases w.flush t opener.start with
  | error e => rfl
  | ok p =>
      have entered : w₁.entering p (regionOf d) opener =
          ⟨p, regionOf d, opener.start, none, 0, false⟩ := by
        simp [Walk.entering, Walk.count, isOpening, isClosing, noMark, between.1, open_.2]
      change (inside ++ [close]).foldlM (Walk.step t) (w₁.entering p (regionOf d) opener) = _
      rw [entered, placed.run whole leads ⟨open_.1, rfl, fun _ => rfl⟩]
      rfl

/-- Elsewhere it goes on with the part that is open. -/
theorem Placed.run_passed (placed : Placed ts gap opener inside close) (whole : Whole ts)
    (leads : d.Leads ts) (top : w.depth = 0) (opened : w.region ≠ .comment)
    (blocked : ¬(w.afterBrace = true ∧ ∀ l ∈ gap, l.kind = .comment)) :
    (gap ++ opener :: (inside ++ [close])).foldlM (Walk.step t) w =
      .ok { w with close := some close.stop, afterBrace := true } := by
  obtain ⟨kind, keyword⟩ := placed.keyword leads
  have noMark (c : Char) : opener.isMark c = false := by simp [isMark, kind]
  have closed : (w.afterBrace && gap.all (·.kind = .comment)) = false := by
    refine Bool.eq_false_iff.mpr fun both => blocked ?_
    simpa using both
  have nothing : Walk.opened? { w with afterBrace := false } opener = none := by
    simp [Walk.opened?, opened]
  have passed : Walk.pass { w with afterBrace := false } opener = { w with afterBrace := false } := by
    simp [Walk.pass, Walk.count, kind, isOpening, isClosing, noMark]
  rw [List.foldlM_append, run_silent placed.silent, closed]
  change (opener :: (inside ++ [close])).foldlM (Walk.step t) { w with afterBrace := false } = _
  rw [List.foldlM_cons, quiet_step t (.inr nothing), passed]
  refine (placed.run (w := { w with afterBrace := false }) whole leads
    ⟨opened, top, fun _ => rfl⟩).trans ?_
  rw [top]

end

end Parts

end ApprovedOps
