import Mathlib.Data.List.TakeWhile
import ApprovedOps.Proofs.Document.Lead
import ApprovedOps.Proofs.Variables.Block

/-! # The first block and what follows it

The walk passes over the lexemes in front of the first block, and opens a region with the next one.
The comment is the text in front of that lexeme; what is cut out later is part of the text from there
on, and variables are cut out as a text that is read up to its last brace.
-/

namespace ApprovedOps.Parts

open Lexeme

/-! ## Blanks around a text -/

theorem trimRight_split (t : Text) :
    ∃ back, t = t.trimRight ++ back ∧ ∀ c ∈ back, c.isBlank = true := by
  refine ⟨(t.reverse.takeWhile CodePoint.isBlank).reverse, ?_, ?_⟩
  · rw [Text.trimRight, ← List.reverse_append, List.takeWhile_append_dropWhile, List.reverse_reverse]
  · intro c among
    exact List.mem_takeWhile_imp (List.mem_reverse.mp among)

theorem trim_split (t : Text) : ∃ front back, t = front ++ (t.trim ++ back) ∧
    (∀ c ∈ front, c.isBlank = true) ∧ ∀ c ∈ back, c.isBlank = true := by
  obtain ⟨back, text, blanks⟩ := trimRight_split t.trimLeft
  refine ⟨t.takeWhile CodePoint.isBlank, back, ?_, fun c => List.mem_takeWhile_imp, blanks⟩
  rw [Text.trim, ← text, Text.trimLeft, List.takeWhile_append_dropWhile]

theorem trim_inside (t : Text) : t.trim <:+: t := by
  obtain ⟨front, back, text, -⟩ := trim_split t
  exact ⟨front, back, by rw [List.append_assoc, ← text]⟩

theorem trim_last {t x : Text} {d : CodePoint} (h : t.trim = x ++ [d]) : d.isBlank = false := by
  have stops := List.head?_dropWhile_not CodePoint.isBlank t.trimLeft.reverse
  have reversed : t.trimLeft.reverse.dropWhile CodePoint.isBlank = d :: x.reverse := by
    have both := congrArg List.reverse h
    rwa [Text.trim, Text.trimRight, List.reverse_reverse, List.reverse_append] at both
  rw [reversed] at stops
  exact stops

theorem trim_before {s back : Text} (blanks : ∀ c ∈ back, c.isBlank = true) :
    (s ++ back).trim = s.trim := by
  have right (x : Text) : Text.trimRight (x ++ back) = Text.trimRight x := by
    rw [Text.trimRight, List.reverse_append, List.dropWhile_append_of_pos fun c among =>
      blanks c (List.mem_reverse.mp among)]
    rfl
  have none_ : back.dropWhile CodePoint.isBlank = [] :=
    List.dropWhile_eq_nil_iff.mpr fun c among => blanks c among
  rw [Text.trim, Text.trimLeft, List.dropWhile_append, none_]
  split
  next empty =>
    rw [Text.trim, Text.trimLeft, List.isEmpty_iff.mp empty]
  next => exact right _

theorem trim_after {front s : Text} (blanks : ∀ c ∈ front, c.isBlank = true) :
    (front ++ s).trim = s.trim := by
  rw [Text.trim, Text.trimLeft, List.dropWhile_append_of_pos blanks]
  rfl

theorem trim_trim (t : Text) : t.trim.trim = t.trim := by
  obtain ⟨front, back, text, before, behind⟩ := trim_split t
  have same := congrArg Text.trim text
  rw [trim_after before, trim_before behind] at same
  exact same.symm

theorem slice_inside {t : Text} {m start : Nat} (later : m ≤ start) (stop : Nat) :
    slice t start stop <:+: t.drop m := by
  have part : slice t start stop <+: t.drop start := by
    rw [slice, List.drop_take]
    exact List.take_prefix _ _
  have behind : t.drop start <:+ t.drop m := by
    rw [← Nat.add_sub_cancel' later, ← List.drop_drop]
    exact List.drop_suffix _ _
  exact part.isInfix.trans behind.isInfix

/-! ## Excerpts -/

/-- Is the text read up to a last closing brace? -/
def Excerpt (v : Text) : Prop :=
  ∃ k body, Variables.Scans k body ∧ v = body ++ [closingBrace]

/-- An excerpt is one without the blanks around it. -/
theorem excerpt_trim {k : Nat} {body : Text} (h : Variables.Scans k body) :
    Excerpt (Text.trim (body ++ [closingBrace])) := by
  induction body generalizing k with
  | nil => exact ⟨k, [], h, by decide⟩
  | cons c body ih =>
      cases blank : c.isBlank with
      | true =>
          have same : Text.trim (c :: body ++ [closingBrace]) = Text.trim (body ++ [closingBrace]) :=
            @trim_after [c] _ (by simpa using blank)
          rw [same]
          exact ih (Variables.scans_blank blank h)
      | false =>
          refine ⟨k, c :: body, h, ?_⟩
          exact trim_eq_self (List.cons_append ..) blank ⟨c :: body, rfl⟩ (by decide)

/-! ## The first block -/

/-- Do the lexemes in front of one open nothing, and does that one open the first block? -/
structure Opens (t : Text) (lead : List Lexeme) (opener : Lexeme) : Prop where
  scanned : ∃ rest, (scan t).1 = lead ++ opener :: rest
  quiet : Walk.Quiet {} lead
  noComment : opener.kind ≠ .comment
  opens : (lead.foldl Walk.pass {}).opened? opener ≠ none

/-- Has the walk opened nothing so far? -/
def Walk.Leading (t : Text) (w : Walk) (k : Nat) : Prop :=
  ∃ lead, (scan t).1 = lead ++ (scanWith Piece.of k (t.drop k)).1 ∧ Walk.Quiet {} lead ∧
    lead.foldl Walk.pass {} = w

/-- Is the last closing brace, if there is one, among the lexemes after the start of the region? -/
def Walk.Holds (t : Text) (w : Walk) (k : Nat) : Prop :=
  ∃ inside, (scanWith Piece.of w.start (t.drop w.start)).1 =
      inside ++ (scanWith Piece.of k (t.drop k)).1 ∧
    ∀ c, w.close = some c → ∃ e, c = e + 1 ∧ brace e ∈ inside

/-- Is the walk beyond an offset at which the comment ends? -/
structure Walk.Beyond (t : Text) (m : Nat) (w : Walk) (k : Nat) : Prop where
  reached : m ≤ k
  region : w.region ≠ .comment
  start : m ≤ w.start
  comment : w.parts.comment = Text.trim (t.take m)
  query : w.parts.query <:+: t.drop m
  vars : w.parts.vars = [] ∨ Excerpt w.parts.vars
  held : w.region = .vars → w.Holds t k

theorem opened?_region {w : Walk} {l : Lexeme} {region : Region} (opens : w.opened? l = some region) :
    region ≠ .comment := by
  obtain ⟨opens, -⟩ := opened?_first opens
  rintro rfl
  have keyword (word : Text) : Region.ofKeyword? word ≠ some .comment := by
    unfold Region.ofKeyword?
    repeat' split
    all_goals exact nofun
  obtain word | ⟨-, brace⟩ := Option.or_eq_some_iff.mp opens
  · unfold Region.openedBy? at word
    split at word
    · exact keyword _ word
    · cases word
  · split at brace <;> cases brace

/-- After a lexeme the reading goes on at its end. -/
theorem scan_after {t : Text} {k : Nat} {l : Lexeme} {ls : List Lexeme} (start : l.start = k)
    (h : (scanWith Piece.of k (t.drop k)).1 = l :: ls) :
    ls = (scanWith Piece.of l.stop (t.drop l.stop)).1 := by
  cases place : t.drop k with
  | nil => simp [place] at h
  | cons c r =>
      rw [place] at h
      cases piece : Piece.of c r with
      | unterminated what => simp [scanWith, piece] at h
      | blank n =>
          have later : k + n + 1 ≤ l.start := by
            rw [scanWith, piece] at h
            exact scan_start (s := r.drop n) (by rw [h]; exact List.mem_cons_self)
          omega
      | lexeme kind n =>
          rw [scan_piece piece] at h
          obtain ⟨rfl, rfl⟩ := List.cons.inj h
          have stop : Lexeme.stop ⟨kind, c :: r.take n, k⟩ = k + min n r.length + 1 := by
            simp only [Lexeme.stop, List.length_cons, List.length_take]
            omega
          rw [stop, drop_past place]
          obtain inside | beyond := Nat.le_total n r.length
          · rw [Nat.min_eq_left inside]
          · rw [Nat.min_eq_right beyond, List.drop_of_length_le beyond,
              List.drop_of_length_le (Nat.le_refl _), scanWith_nil, scanWith_nil]

/-- What the walk adds to the parts beyond an offset is part of the text there. -/
theorem flush_beyond {t : Text} {m k stop : Nat} {w : Walk} {p : Parts} (beyond : w.Beyond t m k)
    (h : w.flush t stop = .ok p) :
    p.comment = Text.trim (t.take m) ∧ p.query <:+: t.drop m ∧ (p.vars = [] ∨ Excerpt p.vars) := by
  obtain ⟨parts, region, start, close, depth, afterBrace⟩ := w
  obtain ⟨-, opened, later, comment, query, vars, held⟩ := beyond
  cases region with
  | comment => exact absurd rfl opened
  | vars =>
      cases close with
      | none => cases h
      | some c =>
          cases h
          obtain ⟨inside, scanned, closed⟩ := held rfl
          obtain ⟨e, rfl, among⟩ := closed c rfl
          obtain ⟨body, rest, place, position, -⟩ := scan_standsIn (k := start) (s := t.drop start)
            (l := brace e) (by rw [scanned]; exact List.mem_append_left _ among)
          obtain rfl : e = start + body.length := position
          obtain ⟨before, after, split⟩ := List.append_of_mem among
          have text : t.drop start = body ++ closingBrace :: rest := place
          have cut : (scanWith Piece.of start (body ++ closingBrace :: rest)).1 =
              before ++ brace (start + body.length) :: (after ++
                (scanWith Piece.of k (t.drop k)).1) := by
            rw [← text, scanned, split, List.append_assoc]
            rfl
          refine ⟨comment, query, .inr ?_⟩
          simp only [slice_brace text]
          exact excerpt_trim ⟨before, scan_cut rfl cut⟩
  | query =>
      cases close with
      | none => cases h
      | some c =>
          simp only [Walk.flush] at h
          split at h <;> cases h
          exact ⟨comment, (trim_inside _).trans (slice_inside later c), vars⟩
  | fragment =>
      cases close with
      | none => cases h
      | some c =>
          obtain ⟨name, -, made⟩ := except_bind_ok h
          cases made
          exact ⟨comment, query, vars⟩

/-- A lexeme that opens a region leads beyond an offset in front of it. -/
theorem beyond_enter {t : Text} {m k k' : Nat} {w w' : Walk} {l : Lexeme} {region : Region}
    (reached : m ≤ k) (later : k < k')
    (next : (scanWith Piece.of k (t.drop k)).1 = l :: (scanWith Piece.of k' (t.drop k')).1)
    (start : l.start = k) (noComment : l.kind ≠ .comment) (opens : w.opened? l = some region)
    (flush : ∀ p, w.flush t k = .ok p →
      p.comment = Text.trim (t.take m) ∧ p.query <:+: t.drop m ∧ (p.vars = [] ∨ Excerpt p.vars))
    (h : w.step t l = .ok w') : w'.Beyond t m k' := by
  rw [Walk.step, if_neg noComment, Walk.enter, opens] at h
  obtain ⟨w₁, enter, counted⟩ := except_bind_ok h
  obtain ⟨p, flushed, made⟩ := except_bind_ok enter
  cases made
  cases counted
  obtain ⟨comment, query, vars⟩ := flush p (start ▸ flushed)
  refine ⟨by omega, opened?_region opens, ?_, comment, query, vars, ?_⟩
  · change m ≤ if region = .vars then l.stop else l.start
    split
    · rw [Lexeme.stop]
      omega
    · omega
  · rintro (rfl : region = .vars)
    refine ⟨[], (scan_after start next).symm, fun c close => ?_⟩
    simp [Walk.count, opened?_noBrace opens] at close

/-- A lexeme that opens nothing leaves the walk beyond an offset. -/
theorem beyond_pass {t : Text} {m k k' : Nat} {w : Walk} {l : Lexeme} (beyond : w.Beyond t m k)
    (later : k < k')
    (next : (scanWith Piece.of k (t.drop k)).1 = l :: (scanWith Piece.of k' (t.drop k')).1) :
    (w.pass l).Beyond t m k' := by
  obtain ⟨parts, region, start⟩ := foldl_pass w [l]
  simp only [List.foldl_cons, List.foldl_nil] at parts region start
  refine ⟨by have := beyond.reached; omega, region ▸ beyond.region, start ▸ beyond.start,
    parts ▸ beyond.comment, parts ▸ beyond.query, parts ▸ beyond.vars, fun isVars => ?_⟩
  obtain ⟨inside, scanned, closed⟩ := beyond.held (region ▸ isVars)
  refine ⟨inside ++ [l], by rw [start, scanned, next, List.append_assoc]; rfl, fun c close => ?_⟩
  unfold Walk.pass Walk.count at close
  split at close
  next =>
    obtain ⟨e, position, among⟩ := closed c close
    exact ⟨e, position, List.mem_append_left _ among⟩
  next =>
    by_cases mark : l.isMark '}' = true
    · simp only [mark, if_true, Option.some.injEq] at close
      refine ⟨l.start, ?_, List.mem_append_right _ (List.mem_singleton.mpr (isMark_brace mark).symm)⟩
      rw [← close, isMark_brace mark]
      rfl
    · simp only [mark, Bool.false_eq_true, if_false] at close
      obtain ⟨e, position, among⟩ := closed c close
      exact ⟨e, position, List.mem_append_left _ among⟩

/-- Is the walk still in the lead, or beyond the first block's beginning? -/
def Walk.Placed (t : Text) (w : Walk) (k : Nat) : Prop :=
  w.Leading t k ∨ ∃ lead opener, Opens t lead opener ∧ w.Beyond t opener.start k

theorem past_placed {t : Text} (w : Walk) (k k' : Nat) (placed : w.Placed t k) (later : k < k')
    (same : (scanWith Piece.of k (t.drop k)).1 = (scanWith Piece.of k' (t.drop k')).1) :
    w.Placed t k' := by
  obtain ⟨lead, scanned, quiet, passed⟩ | ⟨lead, opener, opens, beyond⟩ := placed
  · exact .inl ⟨lead, same ▸ scanned, quiet, passed⟩
  · refine .inr ⟨lead, opener, opens, { beyond with reached := ?_, held := fun isVars => ?_ }⟩
    · have := beyond.reached
      omega
    · obtain ⟨inside, scanned, closed⟩ := beyond.held isVars
      exact ⟨inside, same ▸ scanned, closed⟩

theorem step_placed {t : Text} (w w' : Walk) (l : Lexeme) (k k' : Nat) (placed : w.Placed t k)
    (later : k < k')
    (next : (scanWith Piece.of k (t.drop k)).1 = l :: (scanWith Piece.of k' (t.drop k')).1)
    (start : l.start = k) (h : w.step t l = .ok w') : w'.Placed t k' := by
  by_cases quiet : l.kind = .comment ∨ w.opened? l = none
  · rw [quiet_step t quiet] at h
    cases h
    obtain ⟨lead, scanned, silent, rfl⟩ | ⟨lead, opener, opens, beyond⟩ := placed
    · refine .inl ⟨lead ++ [l], ?_, quiet_append.mpr ⟨silent, quiet, trivial⟩, ?_⟩
      · rw [scanned, next, List.append_assoc]
        rfl
      · rw [List.foldl_append]
        rfl
    · exact .inr ⟨lead, opener, opens, beyond_pass beyond later next⟩
  · obtain ⟨noComment, opens⟩ := not_or.mp quiet
    obtain ⟨region, opens_⟩ := Option.ne_none_iff_exists'.mp opens
    obtain ⟨lead, scanned, silent, rfl⟩ | ⟨lead, opener, first, beyond⟩ := placed
    · obtain ⟨parts, inComment, begins⟩ := foldl_pass {} lead
      refine .inr ⟨lead, l, ⟨⟨_, by rw [scanned, next]⟩, silent, noComment, opens⟩, ?_⟩
      rw [start]
      refine beyond_enter (Nat.le_refl k) later next start noComment opens_ (fun p flushed => ?_) h
      rw [Walk.flush, inComment, parts, begins] at flushed
      cases flushed
      exact ⟨by rw [slice, List.drop_zero], List.nil_infix, .inl rfl⟩
    · exact .inr ⟨lead, opener, first, beyond_enter beyond.reached later next start noComment opens_
        (fun p => flush_beyond beyond) h⟩

/-- A document with an operation has a first block. What is in front of it is the comment, and the
    operation is part of the text from there on. -/
theorem ofText_placed {t : Text} {p : Parts} (h : ofText t = .ok p) (some_ : p.query ≠ []) :
    ∃ lead opener, Opens t lead opener ∧ p.comment = Text.trim (t.take opener.start) ∧
      p.query <:+: t.drop opener.start ∧ (p.vars = [] ∨ Excerpt p.vars) := by
  obtain ⟨w, run, last⟩ := except_bind_ok h
  have begin_ : Walk.Placed t {} 0 := .inl ⟨[], rfl, trivial, rfl⟩
  obtain ⟨k, placed⟩ := run_keeps past_placed step_placed (s := t) rfl begin_ run
  split at last
  next => cases last
  next =>
    obtain ⟨lead, -, -, rfl⟩ | ⟨lead, opener, opens, beyond⟩ := placed
    · obtain ⟨parts, inComment, -⟩ := foldl_pass {} lead
      rw [Walk.flush, inComment, parts] at last
      cases last
      exact absurd rfl some_
    · exact ⟨lead, opener, opens, flush_beyond beyond last⟩

end ApprovedOps.Parts
