import ApprovedOps.Proofs.Document.Opened
import ApprovedOps.Proofs.Variables.Comments

/-! # How a document is divided

The lexemes that open regions divide a document. What stands in front of the first one is the
comment. A region reaches from its opener to the last closing brace in front of the next opener, and
between that brace and the next opener there are only blanks and comments. So nothing else of a
document is lost but what follows its last closing brace, and all variables blocks but the last one.
-/

namespace ApprovedOps

namespace Lexeme

/-! ## Gaps between lexemes -/

theorem gap_blanks {atEnd : Bool} {b s : Text} (blanks : ∀ c ∈ b, c.isBlank = true)
    (gap : Gap atEnd s) : Gap atEnd (b ++ s) := by
  induction b with
  | nil => exact gap
  | cons c b ih =>
      obtain ⟨blank, blanks⟩ := List.forall_mem_cons.mp blanks
      exact .blank blank (ih blanks)

theorem gap_blank {atEnd : Bool} {c : CodePoint} {s : Text} (blank : c.isBlank = true)
    (gap : Gap atEnd (c :: s)) : Gap atEnd s := by
  have solid {d : CodePoint} {r s' : Text} (open_ : d.isBlank = false) (same : c :: s = d :: r) :
      Gap atEnd s' := by
    rw [(List.cons.inj same).1, open_] at blank
    cases blank
  generalize whole : c :: s = u at gap
  cases gap with
  | nil => cases whole
  | blank _ rest =>
      obtain ⟨-, rfl⟩ := List.cons.inj whole
      exact rest
  | line opens | lastLine opens =>
      obtain rfl | rfl := opens <;> exact solid (by decide) whole
  | block => exact solid (by decide) whole

theorem piece_blanks {c : CodePoint} {r : Text} {n : Nat} (h : Piece.of c r = .blank n) :
    ∀ d ∈ c :: r.take n, d.isBlank = true := by
  cases blank : c.isBlank with
  | true =>
      simp only [Piece.of, blank, if_true, Piece.blank.injEq] at h
      have run : r.take n = r.takeWhile CodePoint.isBlank := by
        rw [← h]
        exact List.prefix_iff_eq_take.mp (List.takeWhile_prefix _) |>.symm
      intro d among
      rw [run] at among
      obtain rfl | among := List.mem_cons.mp among
      · exact blank
      · exact List.mem_takeWhile_imp among
  | false =>
      unfold Piece.of at h
      grind

/-- A comment that is read goes to the end of its line, or to its closing mark. -/
theorem piece_comment {c : CodePoint} {r : Text} {n : Nat}
    (h : Piece.of c r = .lexeme .comment n) : Variables.Commented c r (r.drop n) := by
  have line (mark s : Text) (among : mark ∈ Variables.lineMarks) (text : c :: r = mark ++ s)
      (rest : r.drop n = s.drop (lineTail s)) : Variables.Commented c r (r.drop n) := by
    obtain ⟨body, rest', rfl, size, noBreak, stops⟩ := Variables.lineTail_split s
    have size' : lineTail (body ++ rest') = body.length := size.symm
    rw [size', List.drop_left] at rest
    rw [rest]
    exact .line among text noBreak stops
  by_cases hash : c = .char '#'
  · subst hash
    cases h
    exact line [.char '#'] r (by decide) rfl rfl
  by_cases slash : c = .char '/'
  · subst slash
    cases r with
    | nil => cases h
    | cons d r =>
        rw [Piece.of, if_neg (by decide), if_neg (by decide), if_pos rfl] at h
        simp only [List.head?_cons, Option.some.injEq, List.drop_succ_cons, List.drop_zero] at h
        split at h
        next same =>
          subst same
          cases h
          refine line [.char '/', .char '/'] r (by decide) rfl ?_
          rw [lineTail, List.takeWhile_cons_of_pos (by decide), List.length_cons,
            List.drop_succ_cons, lineTail]
        split at h
        next same =>
          subst same
          split at h
          next m found =>
            cases h
            rw [← Variables.commentTail_same] at found
            obtain ⟨body, rest, rfl, rfl, noEnd⟩ := Variables.commentTail_split found
            refine .block noEnd ?_
            simp
          next => cases h
        next => cases h
  · unfold Piece.of at h
    grind

/-- Where only comments are read in front of a lexeme, there is a gap. -/
theorem gap_before {k : Nat} {s : Text} {comments more : List Lexeme} {l : Lexeme}
    (all : ∀ x ∈ comments, x.kind = .comment)
    (h : (scanWith Piece.of k s).1 = comments ++ l :: more) :
    ∃ gap c r, s = gap ++ c :: r ∧ c.isBlank = false ∧ l.start = k + gap.length ∧
      Gap false gap := by
  fun_induction scanWith Piece.of k s generalizing comments with
  | case1 => simp at h
  | case2 k c r n found ih =>
      obtain ⟨gap, d, rest, place, solid, start, isGap⟩ := ih all h
      refine ⟨c :: r.take n ++ gap, d, rest, ?_, solid, ?_, gap_blanks (piece_blanks found) isGap⟩
      · rw [List.append_assoc, ← place, List.cons_append, List.take_append_drop]
      · have inside : n ≤ r.length := by
          have some_ : r.drop n ≠ [] := by simp [place]
          simpa using Nat.le_of_lt (by simpa using some_)
        rw [start, List.length_append, List.length_cons, List.length_take, Nat.min_eq_left inside]
        omega
  | case3 k c r kind n found rest failure split ih =>
      rw [split] at ih
      cases comments with
      | nil =>
          obtain ⟨rfl, -⟩ := List.cons.inj h
          exact ⟨[], c, r, rfl, lexeme_not_blank found, rfl, .nil⟩
      | cons first comments =>
          obtain ⟨rfl, later⟩ := List.cons.inj h
          obtain rfl : kind = .comment := all _ List.mem_cons_self
          obtain ⟨gap, d, rest', place, solid, start, isGap⟩ :=
            ih (fun x among => all x (List.mem_cons_of_mem _ among)) later
          have size : n + 1 + (gap.length + (rest'.length + 1)) = (c :: r).length := by
            have inside := congrArg List.length place
            simp at inside ⊢
            omega
          have commented := piece_comment found
          rw [place] at commented
          cases commented with
          | @line mark body among text noBreak stops =>
              -- The line break behind the comment is part of the gap, since lexemes begin with none.
              obtain ⟨gap, rfl⟩ : ∃ gap', gap = .char '\n' :: gap' := by
                obtain nothing | ⟨t, next⟩ := stops
                · simp at nothing
                · cases gap with
                  | nil =>
                      rw [(List.cons.inj next).1] at solid
                      cases solid
                  | cons e gap => exact ⟨gap, by rw [(List.cons.inj next).1]⟩
              refine ⟨mark ++ body ++ .char '\n' :: gap, d, rest', ?_, solid, ?_, ?_⟩
              · simp [text]
              · have long := congrArg List.length text
                simp at long size
                simp [start]
                omega
              · refine .line ?_ noBreak (gap_blank (by decide) isGap)
                simpa [Variables.lineMarks, IsLineMark, Text.ofString] using among
          | @block body noEnd text =>
              refine ⟨.char '/' :: .char '*' :: body ++ commentEnd ++ gap, d, rest', ?_, solid, ?_,
                .block noEnd isGap⟩
              · simp [text, commentEnd]
              · have long := congrArg List.length text
                simp at long size
                simp [start, commentEnd]
                omega
  | case4 => simp at h

/-- In front of the first lexeme there are only blanks. -/
theorem scan_next {k : Nat} {s : Text} {l : Lexeme} {ls : List Lexeme}
    (h : (scanWith Piece.of k s).1 = l :: ls) :
    ∃ gap c r n, s = gap ++ c :: r ∧ (∀ d ∈ gap, d.isBlank = true) ∧ l.start = k + gap.length ∧
      Piece.of c r = .lexeme l.kind n ∧ l.text = c :: r.take n := by
  fun_induction scanWith Piece.of k s with
  | case1 => cases h
  | case2 k c r n found ih =>
      obtain ⟨gap, d, r', m, place, blanks, start, piece, text⟩ := ih h
      have inside : n ≤ r.length := by
        have some_ : r.drop n ≠ [] := by simp [place]
        exact Nat.le_of_lt (by simpa using some_)
      refine ⟨c :: r.take n ++ gap, d, r', m, ?_, ?_, ?_, piece, text⟩
      · rw [List.append_assoc, ← place, List.cons_append, List.take_append_drop]
      · simpa [or_imp, forall_and, and_assoc] using And.intro (piece_blanks found) blanks
      · rw [start, List.length_append, List.length_cons, List.length_take, Nat.min_eq_left inside]
        omega
  | case3 k c r kind n found rest failure split ih =>
      obtain ⟨rfl, -⟩ := List.cons.inj h
      exact ⟨[], c, r, n, rfl, List.forall_mem_nil _, rfl, found, rfl⟩
  | case4 => cases h

/-- Behind a lexeme the reading goes on at its end. -/
theorem scan_behind {t s : Text} {k : Nat} {front ls : List Lexeme} {l : Lexeme}
    (place : t.drop k = s) (h : (scanWith Piece.of k s).1 = front ++ l :: ls) :
    ls = (scanWith Piece.of l.stop (t.drop l.stop)).1 := by
  fun_induction scanWith Piece.of k s generalizing front with
  | case1 => simp at h
  | case2 k c r n found ih => exact ih (Parts.drop_past place n) h
  | case3 k c r kind n found rest failure split ih =>
      cases front with
      | nil =>
          obtain ⟨rfl, rfl⟩ := List.cons.inj h
          refine Parts.scan_after rfl ?_
          rw [place, scan_piece found, split]
      | cons first front =>
          rw [split] at ih
          exact ih (Parts.drop_past place n) (List.cons.inj h).2
  | case4 => simp at h

/-- Lexemes do not overlap. -/
theorem stop_le_start {t : Text} {before after : List Lexeme} {l m : Lexeme}
    (whole : (scan t).1 = before ++ l :: after) (among : m ∈ after) : l.stop ≤ m.start := by
  rw [scan_behind (t := t) rfl whole] at among
  exact scan_start among

/-- A text goes on with a lexeme where it begins, and behind it where it ends. -/
theorem drop_start {t : Text} {l : Lexeme} (among : l ∈ (scan t).1) :
    t.drop l.start = l.text ++ t.drop l.stop := by
  obtain ⟨front, rest, place, start, -⟩ := scan_standsIn (k := 0) (s := t) among
  rw [Lexeme.stop, ← List.drop_drop, start, Nat.zero_add]
  conv_lhs => rw [place, List.drop_left]
  conv_rhs => rw [place, List.drop_left, List.drop_left]

end Lexeme

namespace Parts

open Lexeme

/-! ## Stretches -/

/-- How many brackets are open after some lexemes. A closing bracket that closes none counts for
    nothing. -/
def depthAfter (ls : List Lexeme) : Nat :=
  ls.foldl (fun depth l =>
    if isOpening l then depth + 1 else if isClosing l then depth - 1 else depth) 0

/-- A region of a document where it stands. -/
structure Stretch where
  /-- What it is. -/
  region : Region
  /-- The lexeme that opens it. -/
  opener : Lexeme
  /-- The offset after its last closing brace. -/
  close : Nat
  deriving DecidableEq, Repr

namespace Stretch

/-- The offset from which on its text counts. The keyword is part of operations and fragments, not of
    variables. -/
def start (s : Stretch) : Nat :=
  if s.region = .vars then s.opener.stop else s.opener.start

/-- Its text. -/
def value (t : Text) (s : Stretch) : Text :=
  (slice t s.start s.close).trim

end Stretch

/-- Does a lexeme outside all brackets open the region? -/
structure Triggers (t : Text) (region : Region) (l : Lexeme) : Prop where
  opens : Region.openedBy? l = some region ∨ l.isMark '{' = true ∧ region = .query
  top : ∃ before after, (scan t).1 = before ++ l :: after ∧ depthAfter before = 0

/-- Is the last closing brace after the opener and in front of an offset the one that ends here? -/
structure Ends (t : Text) (opener : Lexeme) (close upTo : Nat) : Prop where
  brace : ∃ e, close = e + 1 ∧ opener.stop ≤ e ∧ brace e ∈ (scan t).1
  within : close ≤ upTo
  last : ∀ l ∈ (scan t).1, l.isMark '}' = true → l.start < upTo → l.stop ≤ close

/-- Do the stretches divide a text up to an offset? Each is opened outside all brackets, by a keyword
    if it is not the first, and ends at the last closing brace in front of the next one. Between them
    are only blanks and comments. -/
structure Divides (t : Text) (upTo : Nat) (ss : List Stretch) : Prop where
  triggers : ∀ s ∈ ss, Triggers t s.region s.opener
  keywords : ∀ s ∈ ss.tail, Region.openedBy? s.opener = some s.region
  next : ss.IsChain fun s s' => Ends t s.opener s.close s'.opener.start ∧
    Gap false (slice t s.close s'.opener.start)
  last : ∀ s ∈ ss.getLast?, Ends t s.opener s.close upTo

/-- Are the parts what stands in front of the first stretch, and the texts of the stretches? Of several
    variables blocks the last one counts. -/
structure MadeOf (t : Text) (upTo : Nat) (ss : List Stretch) (p : Parts) : Prop where
  comment : p.comment = Text.trim (t.take ((ss.head?.map (·.opener.start)).getD upTo))
  vars : p.vars = ((ss.filter (·.region = .vars)).getLast?.map (·.value t)).getD []
  query : ss.filter (·.region = .query) = [] ∧ p.query = [] ∨
    ∃ s, ss.filter (·.region = .query) = [s] ∧ p.query = s.value t ∧ p.query ≠ []
  fragments : p.fragments.map (·.value) = (ss.filter (·.region = .fragment)).map (·.value t)
  names : ∀ f ∈ p.fragments, Fragment.nameOf f.value = .ok f.name

/-- What is cut out from an offset to behind a brace of the text ends with this brace. -/
theorem slice_to_brace {t : Text} {m e : Nat} (among : brace e ∈ (scan t).1) (before : m ≤ e) :
    ∃ body rest, t.drop m = body ++ closingBrace :: rest ∧ e = m + body.length ∧
      slice t m (e + 1) = body ++ [closingBrace] := by
  obtain ⟨front, rest, place, start, -⟩ := scan_standsIn (k := 0) (s := t) among
  have start : e = front.length := start.trans (Nat.zero_add _)
  have dropped : t.drop m = front.drop m ++ closingBrace :: rest := by
    conv_lhs => rw [place]
    exact List.drop_append_of_le_length (by omega)
  have size : e = m + (front.drop m).length := by
    rw [List.length_drop]
    omega
  refine ⟨_, rest, dropped, size, ?_⟩
  rw [← slice_brace dropped, ← size]

/-! ## The walk -/

theorem depthAfter_append (ls : List Lexeme) (l : Lexeme) :
    depthAfter (ls ++ [l]) = if isOpening l then depthAfter ls + 1
      else if isClosing l then depthAfter ls - 1 else depthAfter ls := by
  rw [depthAfter, List.foldl_append]
  rfl

theorem depthAfter_pass {w : Walk} {ls : List Lexeme} (depth : w.depth = depthAfter ls)
    (l : Lexeme) : (w.pass l).depth = depthAfter (ls ++ [l]) := by
  rw [depthAfter_append, Walk.pass]
  split
  next comment => simp [depth, isOpening, isClosing, isMark, comment]
  next => simp [Walk.count, depth]

/-- Is the region that the walk has opened with a lexeme, behind some complete stretches, closed by the
    last closing brace among the lexemes since? -/
structure Walk.Open (t : Text) (w : Walk) (ss : List Stretch) (before : List Lexeme)
    (opener : Lexeme) (inside : List Lexeme) : Prop where
  top : depthAfter before = 0
  notComment : w.region ≠ .comment
  opens : Region.openedBy? opener = some w.region ∨
    opener.isMark '{' = true ∧ w.region = .query ∧ ss = []
  start : w.start = if w.region = .vars then opener.stop else opener.start
  closed : ∀ c, w.close = some c → ∃ front e trail, inside = front ++ brace e :: trail ∧
    c = e + 1 ∧ (∀ l ∈ trail, l.isMark '}' = false) ∧
    (w.afterBrace = true → ∀ l ∈ trail, l.kind = .comment)
  divides : Divides t opener.start ss
  gap : ∀ s ∈ ss.getLast?, Gap false (slice t s.close opener.start)
  made : MadeOf t opener.start ss w.parts

/-- Has the walk opened nothing so far, or is a region open behind complete ones? -/
def Walk.Divided (t : Text) (w : Walk) (passed : List Lexeme) : Prop :=
  w.depth = depthAfter passed ∧
    ((w.region = .comment ∧ w.start = 0 ∧ w.parts = {}) ∨
      ∃ ss before opener inside, passed = before ++ opener :: inside ∧
        w.Open t ss before opener inside)

/-- What holds of the walk at the start and is kept by every lexeme holds in the end. -/
theorem walk_keeps {t : Text} {I : Walk → List Lexeme → Prop} {w w' : Walk}
    {passed rest : List Lexeme}
    (step : ∀ w w' passed l rest, (scan t).1 = passed ++ l :: rest → I w passed →
      w.step t l = .ok w' → I w' (passed ++ [l]))
    (whole : (scan t).1 = passed ++ rest) (begin_ : I w passed)
    (run : rest.foldlM (Walk.step t) w = .ok w') : I w' (scan t).1 := by
  induction rest generalizing w passed with
  | nil =>
      cases run
      rw [whole, List.append_nil]
      exact begin_
  | cons l rest ih =>
      rw [List.foldlM_cons] at run
      obtain ⟨w₁, first, later⟩ := except_bind_ok run
      exact ih (by rw [whole, List.append_assoc]; rfl) (step _ _ _ _ _ whole begin_ first) later

/-- What a text that is no gap leaves when it is trimmed. -/
theorem trim_ne_nil {t : Text} {c : CodePoint} (among : c ∈ t) (solid : c.isBlank = false) :
    t.trim ≠ [] := by
  intro nothing
  obtain ⟨front, back, text, before, behind⟩ := trim_split t
  rw [text, nothing, List.nil_append] at among
  obtain there | there := List.mem_append.mp among
  · exact Bool.false_ne_true (solid.symm.trans (before c there))
  · exact Bool.false_ne_true (solid.symm.trans (behind c there))

/-- What is cut out from a lexeme on is not empty. -/
theorem slice_trim_ne_nil {t : Text} {l : Lexeme} {close : Nat} (among : l ∈ (scan t).1)
    (later : l.start < close) : (slice t l.start close).trim ≠ [] := by
  obtain ⟨front, rest, place, start, c, r, text, solid⟩ := scan_standsIn (k := 0) (s := t) among
  have dropped : t.drop l.start = c :: (r ++ rest) := by
    rw [place, start, Nat.zero_add, List.drop_left, text, List.cons_append]
  refine trim_ne_nil (c := c) ?_ solid
  obtain ⟨n, size⟩ := Nat.exists_eq_succ_of_ne_zero (Nat.sub_ne_zero_of_lt later)
  rw [slice, List.drop_take, dropped, size]
  exact List.mem_cons_self

section

variable {t : Text} {w : Walk} {ss : List Stretch} {before inside rest : List Lexeme}
  {opener : Lexeme} {c upTo : Nat}

/-- The region that is open ends at the last closing brace so far. -/
theorem Walk.Open.ends (open_ : w.Open t ss before opener inside)
    (whole : (scan t).1 = before ++ opener :: inside ++ rest) (close : w.close = some c)
    (within : ∀ l ∈ inside, l.start < upTo) (beyond : ∀ l ∈ rest, upTo ≤ l.start) :
    Ends t opener c upTo := by
  obtain ⟨front, e, trail, rfl, rfl, noBrace, -⟩ := open_.closed c close
  have sorted : (scan t).1.Pairwise fun l l' => l.start < l'.start := scan_sorted 0 t
  have scanned : (scanWith Piece.of 0 t).1 =
      before ++ opener :: (front ++ brace e :: trail ++ rest) := by
    rw [← scan, whole, List.append_assoc]
    rfl
  have behind := scan_behind (t := t) rfl scanned
  have after : opener.stop ≤ e :=
    scan_start (s := t.drop opener.stop) (l := brace e) (by rw [← behind]; simp)
  have inTime : e < upTo := within (brace e) (by simp)
  refine ⟨⟨e, rfl, after, by rw [whole]; simp⟩, inTime, fun l among mark early => ?_⟩
  have single : l.stop = l.start + 1 := by
    rw [isMark_brace mark]
    rfl
  have around : (scan t).1 = (before ++ opener :: front) ++ brace e :: (trail ++ rest) := by
    rw [whole]
    simp
  rw [around] at sorted among
  obtain earlier | later := List.mem_append.mp among
  · have first := (List.pairwise_append.mp sorted).2.2 l earlier (brace e) List.mem_cons_self
    change l.start < e at first
    omega
  · obtain rfl | behind := List.mem_cons.mp later
    · exact Nat.le_refl _
    · obtain inTrail | inRest := List.mem_append.mp behind
      · rw [noBrace l inTrail] at mark
        cases mark
      · have := beyond l inRest
        omega

/-- The region that is open is complete with its last closing brace. -/
theorem Walk.Open.flushed {p : Parts} {stop : Nat} (open_ : w.Open t ss before opener inside)
    (among : opener ∈ (scan t).1) (flushed : w.flush t stop = .ok p) :
    ∃ c, w.close = some c ∧
      (Ends t opener c upTo → MadeOf t upTo (ss ++ [⟨w.region, opener, c⟩]) p) := by
  obtain ⟨comment, vars, query, fragments, names⟩ := open_.made
  have opened := open_.notComment
  have value (c : Nat) : (slice t w.start c).trim = Stretch.value t ⟨w.region, opener, c⟩ := by
    rw [Stretch.value, Stretch.start, open_.start]
  have head (c : Nat) :
      ((ss ++ [Stretch.mk w.region opener c]).head?.map (·.opener.start)).getD upTo =
        (ss.head?.map (·.opener.start)).getD opener.start := by
    cases ss <;> rfl
  unfold Walk.flush at flushed
  cases close : w.close with
  | none =>
      rw [close] at flushed
      split at flushed <;> grind
  | some c =>
      refine ⟨c, rfl, fun ends => ?_⟩
      obtain ⟨⟨e, rfl, after, -⟩, -, -⟩ := ends
      have later : opener.start < e + 1 := by
        rw [Lexeme.stop] at after
        omega
      rw [close] at flushed
      simp only [value] at flushed
      cases region : w.region with
      | comment => exact absurd region opened
      | vars =>
          simp only [region, Except.ok.injEq] at flushed head
          subst flushed
          refine ⟨by rw [head, ← comment], by simp, ?_, ?_, names⟩
          · simpa using query
          · simpa using fragments
      | query =>
          simp only [region] at flushed head
          split at flushed
          next nothing =>
            cases flushed
            refine ⟨by rw [head, ← comment], ?_, ?_, ?_, names⟩
            · simpa using vars
            · obtain ⟨noQuery, -⟩ | ⟨s, -, same, some_⟩ := query
              · refine .inr ⟨⟨.query, opener, e + 1⟩, by simp [noQuery], rfl, ?_⟩
                exact slice_trim_ne_nil among later
              · exact absurd nothing some_
            · simpa using fragments
          next => cases flushed
      | fragment =>
          simp only [region] at flushed head
          obtain ⟨name, named, made⟩ := except_bind_ok flushed
          cases made
          refine ⟨by rw [head, ← comment], ?_, ?_, ?_, ?_⟩
          · simpa using vars
          · simpa using query
          · simp [fragments]
          · intro f among
            obtain old | new := List.mem_append.mp among
            · exact names f old
            · obtain rfl := List.mem_singleton.mp new
              exact named

/-- Stretches that divide a text up to an opener, and the one that it opens, divide it further. -/
theorem Divides.snoc {region : Region} (divides : Divides t opener.start ss)
    (triggers : Triggers t region opener)
    (keyword : ss ≠ [] → Region.openedBy? opener = some region)
    (gap : ∀ s ∈ ss.getLast?, Gap false (slice t s.close opener.start))
    (ends : Ends t opener c upTo) : Divides t upTo (ss ++ [⟨region, opener, c⟩]) := by
  refine ⟨fun s among => ?_, fun s among => ?_, ?_, fun s last => ?_⟩
  · obtain old | new := List.mem_append.mp among
    · exact divides.triggers s old
    · obtain rfl := List.mem_singleton.mp new
      exact triggers
  · cases ss with
    | nil => cases among
    | cons first ss =>
        obtain old | new := List.mem_append.mp among
        · exact divides.keywords s old
        · obtain rfl := List.mem_singleton.mp new
          exact keyword nofun
  · refine List.isChain_append.mpr ⟨divides.next, .singleton _, fun s last s' new => ?_⟩
    obtain rfl := Option.mem_some.mp new
    exact ⟨divides.last s last, gap s last⟩
  · obtain rfl : ⟨region, opener, c⟩ = s := by simpa using last
    exact ends

/-- With the region that is open the stretches divide the text up to where it is left. -/
theorem Walk.Open.complete {p : Parts} (open_ : w.Open t ss before opener inside)
    (whole : (scan t).1 = before ++ opener :: inside ++ rest)
    (within : ∀ l ∈ inside, l.start < upTo) (beyond : ∀ l ∈ rest, upTo ≤ l.start)
    (flushed : w.flush t upTo = .ok p) :
    ∃ c, w.close = some c ∧ Divides t upTo (ss ++ [⟨w.region, opener, c⟩]) ∧
      MadeOf t upTo (ss ++ [⟨w.region, opener, c⟩]) p := by
  obtain ⟨c, close, made⟩ := open_.flushed (by rw [whole]; simp) flushed
  have ends : Ends t opener c upTo := open_.ends whole close within beyond
  refine ⟨c, close, open_.divides.snoc ⟨?_, before, inside ++ rest, ?_, open_.top⟩ ?_ open_.gap ends,
    made ends⟩
  · exact open_.opens.imp_right fun ⟨mark, isQuery, _⟩ => ⟨mark, isQuery⟩
  · rw [whole, List.append_assoc]
    rfl
  · exact fun some_ => open_.opens.resolve_right fun ⟨_, _, none_⟩ => some_ none_

/-- When the last lexeme was a closing brace, there is only a gap between it and the next one. -/
theorem Walk.Open.gap_next {l : Lexeme} (open_ : w.Open t ss before opener inside)
    (whole : (scan t).1 = before ++ opener :: inside ++ l :: rest) (close : w.close = some c)
    (afterBrace : w.afterBrace = true) : Gap false (slice t c l.start) := by
  obtain ⟨front, e, trail, rfl, rfl, -, comments⟩ := open_.closed c close
  have scanned : (scanWith Piece.of 0 t).1 =
      (before ++ opener :: front) ++ brace e :: (trail ++ l :: rest) := by
    rw [← scan, whole]
    simp
  have behind := scan_behind (t := t) rfl scanned
  obtain ⟨gap, d, r, place, -, start, isGap⟩ := gap_before (comments afterBrace) behind.symm
  have cut : slice t (brace e).stop l.start = gap := by
    rw [slice, List.drop_take, place, start, Nat.add_sub_cancel_left, List.take_left]
  exact cut ▸ isGap

/-- A lexeme that opens nothing belongs to the region that is open. -/
theorem Walk.Open.pass (open_ : w.Open t ss before opener inside) (l : Lexeme) :
    (w.pass l).Open t ss before opener (inside ++ [l]) := by
  obtain ⟨parts, region, start⟩ := foldl_pass w [l]
  simp only [List.foldl_cons, List.foldl_nil] at parts region start
  refine ⟨open_.top, region ▸ open_.notComment, region ▸ open_.opens, ?_, fun c close => ?_,
    open_.divides, open_.gap, parts ▸ open_.made⟩
  · rw [start, region, open_.start]
  · unfold Walk.pass Walk.count at close ⊢
    split at close
    next comment =>
      obtain ⟨front, e, trail, rfl, same, noBrace, comments⟩ := open_.closed c close
      refine ⟨front, e, trail ++ [l], by simp, same, ?_, ?_⟩
      · simpa [or_imp, forall_and, isMark, comment] using noBrace
      · simpa [or_imp, forall_and, comment] using comments
    next noComment =>
      cases mark : l.isMark '}' with
      | true =>
          simp only [mark, if_true, Option.some.injEq] at close
          refine ⟨inside, l.start, [], by rw [← isMark_brace mark], ?_, List.forall_mem_nil _,
            fun _ => List.forall_mem_nil _⟩
          rw [← close, isMark_brace mark]
          rfl
      | false =>
          simp only [mark, Bool.false_eq_true, if_false] at close
          obtain ⟨front, e, trail, rfl, same, noBrace, -⟩ := open_.closed c close
          refine ⟨front, e, trail ++ [l], by simp, same, ?_, ?_⟩
          · simpa [or_imp, forall_and, mark] using noBrace
          · simp [noComment]

/-- The walk that goes on from complete parts in a region that a lexeme opens. -/
def Walk.entering (w : Walk) (p : Parts) (region : Region) (l : Lexeme) : Walk :=
  Walk.count { w with
    parts := p, region, start := if region = .vars then l.stop else l.start, close := none } l

theorem entering_depth {passed : List Lexeme} (depth : w.depth = depthAfter passed) (p : Parts)
    (region : Region) (l : Lexeme) :
    (w.entering p region l).depth = depthAfter (passed ++ [l]) := by
  simp [Walk.entering, Walk.count, depthAfter_append, depth]

/-- A lexeme that opens a region completes the one before it. -/
theorem step_entering {l : Lexeme} {region : Region} (noComment : l.kind ≠ .comment)
    (opens : w.opened? l = some region) :
    w.step t l = (w.flush t l.start).map fun p => w.entering p region l := by
  rw [Walk.step, if_neg noComment, Walk.enter, opens]
  cases w.flush t l.start <;> rfl

/-- Nothing is inside a region yet when a lexeme has opened it. -/
theorem Walk.entering_open {l : Lexeme} {passed : List Lexeme} {region : Region} {p : Parts}
    (top : depthAfter passed = 0) (opens : w.opened? l = some region)
    (keyword : Region.openedBy? l = some region ∨ l.isMark '{' = true ∧ region = .query ∧ ss = [])
    (divides : Divides t l.start ss)
    (gap : ∀ s ∈ ss.getLast?, Gap false (slice t s.close l.start)) (made : MadeOf t l.start ss p) :
    (w.entering p region l).Open t ss passed l [] := by
  have noBrace := opened?_noBrace opens
  refine ⟨top, opened?_region opens, keyword, rfl, ?_, divides, gap, made⟩
  simp [Walk.entering, Walk.count, noBrace]

theorem divides_nil (t : Text) (upTo : Nat) : Divides t upTo [] where
  triggers := List.forall_mem_nil _
  keywords := List.forall_mem_nil _
  next := .nil
  last := by
    intro s among
    cases among

/-- In front of the first region there is only the comment. -/
theorem made_first {p : Parts} {upTo : Nat} (inComment : w.region = .comment) (begins : w.start = 0)
    (parts : w.parts = {}) (flushed : w.flush t upTo = .ok p) : MadeOf t upTo [] p := by
  rw [Walk.flush, inComment, parts, begins] at flushed
  cases flushed
  exact ⟨by rw [slice, List.drop_zero]; rfl, rfl, .inl ⟨rfl, rfl⟩, rfl, List.forall_mem_nil _⟩

/-- The first lexeme that opens a region ends the comment. -/
theorem enter_first {l : Lexeme} {passed : List Lexeme} {region : Region} {p : Parts}
    (top : depthAfter passed = 0) (inComment : w.region = .comment) (begins : w.start = 0)
    (parts : w.parts = {}) (opens : w.opened? l = some region)
    (flushed : w.flush t l.start = .ok p) : (w.entering p region l).Open t [] passed l [] := by
  have keyword : Region.openedBy? l = some region ∨ l.isMark '{' = true ∧ region = .query ∧
      ([] : List Stretch) = [] := by
    simp only [Walk.opened?, inComment, if_true] at opens
    split at opens
    next => cases opens
    next =>
      obtain word | ⟨-, brace⟩ := Option.or_eq_some_iff.mp opens
      · exact .inl word
      · split at brace
        next mark => exact .inr ⟨mark, (Option.some.inj brace).symm, rfl⟩
        next => cases brace
  refine Walk.entering_open top opens keyword (divides_nil t _) ?_
    (made_first inComment begins parts flushed)
  intro s among
  cases among

/-- A later lexeme that opens a region completes the one that was open. -/
theorem Walk.Open.enter {l : Lexeme} {region : Region} {p : Parts}
    (open_ : w.Open t ss before opener inside)
    (whole : (scan t).1 = before ++ opener :: inside ++ l :: rest)
    (top : depthAfter (before ++ opener :: inside) = 0) (opens : w.opened? l = some region)
    (flushed : w.flush t l.start = .ok p) :
    ∃ c, w.close = some c ∧ (w.entering p region l).Open t (ss ++ [⟨w.region, opener, c⟩])
      (before ++ opener :: inside) l [] := by
  have sorted : (scan t).1.Pairwise fun l l' => l.start < l'.start := scan_sorted 0 t
  rw [whole] at sorted
  have split := List.pairwise_append.mp sorted
  obtain ⟨c, close, divides, made⟩ := open_.complete whole
    (fun l' among => split.2.2 l' (by simp [among]) l List.mem_cons_self)
    (fun l' among => by
      obtain rfl | later := List.mem_cons.mp among
      · exact Nat.le_refl _
      · exact Nat.le_of_lt ((List.pairwise_cons.mp split.2.1).1 l' later)) flushed
  have between := opens
  unfold Walk.opened? at between
  split at between
  next => cases between
  next =>
    rw [if_neg open_.notComment] at between
    split at between
    next afterBrace =>
      refine ⟨c, close, Walk.entering_open top opens (.inl between) divides (fun s last => ?_) made⟩
      obtain rfl : ⟨w.region, opener, c⟩ = s := by simpa using last
      exact open_.gap_next whole close afterBrace
    next => cases between

/-- A lexeme that opens a region divides the document there. -/
theorem enter_divided {l : Lexeme} {passed : List Lexeme} {w' : Walk} {region : Region}
    (whole : (scan t).1 = passed ++ l :: rest) (divided : w.Divided t passed)
    (noComment : l.kind ≠ .comment) (opens : w.opened? l = some region)
    (h : w.step t l = .ok w') : w'.Divided t (passed ++ [l]) := by
  rw [step_entering noComment opens] at h
  obtain ⟨p, flushed, rfl⟩ := except_map_ok h
  obtain ⟨depth, place⟩ := divided
  have top : depthAfter passed = 0 := depth ▸ (opened?_first opens).2
  have depth' := entering_depth depth p region l
  obtain ⟨inComment, begins, parts⟩ | ⟨ss, before, opener, inside, rfl, open_⟩ := place
  · exact ⟨depth', .inr ⟨[], passed, l, [], rfl,
      enter_first top inComment begins parts opens flushed⟩⟩
  · obtain ⟨c, -, entered⟩ := open_.enter whole top opens flushed
    exact ⟨depth', .inr ⟨_, _, l, [], rfl, entered⟩⟩

theorem step_divided (w w' : Walk) (passed : List Lexeme) (l : Lexeme) (rest : List Lexeme)
    (whole : (scan t).1 = passed ++ l :: rest) (divided : w.Divided t passed)
    (h : w.step t l = .ok w') : w'.Divided t (passed ++ [l]) := by
  by_cases quiet : l.kind = .comment ∨ w.opened? l = none
  · rw [quiet_step t quiet] at h
    cases h
    obtain ⟨depth, ⟨region, start, parts⟩ | ⟨ss, before, opener, inside, rfl, open_⟩⟩ := divided
    · obtain ⟨parts', region', start'⟩ := foldl_pass w [l]
      exact ⟨depthAfter_pass depth l,
        .inl ⟨region'.trans region, start'.trans start, parts'.trans parts⟩⟩
    · exact ⟨depthAfter_pass depth l, .inr ⟨ss, before, opener, inside ++ [l], by simp,
        open_.pass l⟩⟩
  · obtain ⟨noComment, opens⟩ := not_or.mp quiet
    obtain ⟨region, opens⟩ := Option.ne_none_iff_exists'.mp opens
    exact enter_divided whole divided noComment opens h

/-- A text in which no region is opened is a comment. -/
theorem unopened_finish {p : Parts} (inComment : w.region = .comment) (begins : w.start = 0)
    (parts : w.parts = {}) (flushed : w.flush t t.length = .ok p) :
    Divides t t.length [] ∧ MadeOf t t.length [] p :=
  ⟨divides_nil t _, made_first inComment begins parts flushed⟩

/-- At the end of the text the last region is complete. -/
theorem Walk.Open.finish {p : Parts} (open_ : w.Open t ss before opener inside)
    (whole : (scan t).1 = before ++ opener :: inside) (flushed : w.flush t t.length = .ok p) :
    ∃ c, w.close = some c ∧ Divides t t.length (ss ++ [⟨w.region, opener, c⟩]) ∧
      MadeOf t t.length (ss ++ [⟨w.region, opener, c⟩]) p := by
  have within (l : Lexeme) (among : l ∈ inside) : l.start < t.length := by
    obtain ⟨front, rest, place, start, c, r, text, -⟩ := scan_standsIn (k := 0) (s := t) (l := l)
      (by rw [← scan, whole]; simp [among])
    rw [place, start, text]
    simp
  rw [← List.append_nil (before ++ opener :: inside)] at whole
  exact open_.complete whole within (List.forall_mem_nil _) flushed

end

/-- A document that is cut into parts is divided by the lexemes that open regions: the comment
    is what stands in front of them, every part is a stretch of the document up to a closing brace, and
    between a stretch and the next one are only blanks and comments. -/
theorem ofText_divided {t : Text} {p : Parts} (h : ofText t = .ok p) :
    ∃ ss, Divides t t.length ss ∧ MadeOf t t.length ss p := by
  obtain ⟨w, run, last⟩ := except_bind_ok h
  have begin_ : Walk.Divided t {} [] := ⟨rfl, .inl ⟨rfl, rfl, rfl⟩⟩
  have divided := walk_keeps step_divided (List.nil_append _).symm begin_ run
  split at last
  next => cases last
  next =>
    obtain ⟨-, ⟨inComment, begins, parts⟩ | ⟨ss, before, opener, inside, whole, open_⟩⟩ := divided
    · exact ⟨[], unopened_finish inComment begins parts last⟩
    · obtain ⟨c, -, divides, made⟩ := open_.finish whole last
      exact ⟨_, divides, made⟩

/-- Stray closing brackets do not count, but a region reaches up to the last closing brace. Of the two
    variables blocks the last one is kept. -/
theorem ofText_divided_of_stray :
    let t := Text.ofString
      "# a\nvariables \x7b\x7d ] \x7d query \x7bb\x7d // c\nvariables \x7bd\x7d \x7d e"
    ∃ ss, Divides t t.length ss ∧ MadeOf t t.length ss
      { comment := "# a", vars := "\x7bd\x7d \x7d", query := "query \x7bb\x7d" } :=
  ofText_divided (except_ok (by decide +kernel))

end Parts

end ApprovedOps
