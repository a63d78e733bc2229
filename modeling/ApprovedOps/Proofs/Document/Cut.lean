import ApprovedOps.Proofs.Document.Operation

/-! # Parts of a document on their own

What is cut out of a document as its operation, or as one of its fragments, ends with a closing
brace. Cut off there, its lexemes are those that it has in the document, and so the walk over it
opens the same region with the first lexeme and no other one: it is cut into itself.
-/

namespace ApprovedOps

namespace Lexeme

/-! ## Tails that end before a cut -/

theorem takeWhile_cut {α : Type} {p : α → Bool} {y t : List α} {b : α}
    (fits : ((y ++ b :: t).takeWhile p).length ≤ y.length) :
    (y ++ [b]).takeWhile p = (y ++ b :: t).takeWhile p := by
  induction y with
  | nil =>
      cases stops : p b with
      | false => simp [stops]
      | true => simp [stops] at fits
  | cons a y ih =>
      cases goes : p a with
      | false => simp [goes]
      | true =>
          simp only [List.cons_append, List.takeWhile_cons, goes, if_true, List.length_cons,
            Nat.add_le_add_iff_right] at fits ⊢
          rw [ih fits]

theorem commentTail_pos {s : Text} {n : Nat} (h : commentTail s = some n) : 0 < n := by
  cases s with
  | nil => cases h
  | cons c r =>
      rw [commentTail] at h
      split at h
      · cases h
        decide
      · obtain ⟨k, -, rfl⟩ := Option.map_eq_some_iff.mp h
        exact Nat.succ_pos k

theorem commentTail_cut {s t : Text} {n : Nat} (h : commentTail (s ++ t) = some n)
    (fits : n ≤ s.length) : commentTail s = some n := by
  induction s generalizing n with
  | nil => exact absurd (commentTail_pos h) (Nat.not_lt.mpr fits)
  | cons c r ih =>
      rw [List.cons_append, commentTail] at h
      rw [commentTail]
      cases r with
      | nil =>
          split at h
          · cases h
            simp at fits
          · obtain ⟨k, found, rfl⟩ := Option.map_eq_some_iff.mp h
            have pos := commentTail_pos found
            simp at fits
            omega
      | cons d r =>
          split at h
          next closes => exact (if_pos closes).trans h
          next goesOn =>
            obtain ⟨k, found, rfl⟩ := Option.map_eq_some_iff.mp h
            have later := ih found (Nat.le_of_succ_le_succ fits)
            exact (if_neg goesOn).trans (congrArg (Option.map (· + 1)) later)

theorem quotedTail_pos {s : Text} {n : Nat} (h : quotedTail s = some n) : 0 < n := by
  fun_induction quotedTail s with
  | case1 | case3 | case5 => cases h
  | case2 =>
      cases h
      decide
  | case4 | case6 =>
      obtain ⟨k, -, rfl⟩ := Option.map_eq_some_iff.mp h
      omega

theorem quotedTail_cut {s t : Text} {n : Nat} (h : quotedTail (s ++ t) = some n)
    (fits : n ≤ s.length) : quotedTail s = some n := by
  fun_induction quotedTail s generalizing n with
  | case1 => exact absurd (quotedTail_pos h) (Nat.not_lt.mpr fits)
  | case2 r =>
      rw [List.cons_append, quotedTail.eq_def] at h
      exact h
  | case3 open_ =>
      cases t with
      | nil => cases h
      | cons d t =>
          obtain ⟨k, -, rfl⟩ := Option.map_eq_some_iff.mp h
          simp at fits
  | case4 d r open_ ih =>
      obtain ⟨k, found, rfl⟩ := Option.map_eq_some_iff.mp h
      rw [ih found (by simp at fits; omega), Option.map_some]
  | case5 =>
      rw [List.cons_append, quotedTail.eq_def] at h
      exact h
  | case6 c r open_ plain sameLine ih =>
      rw [List.cons_append, quotedTail.eq_def] at h
      simp only [open_, plain, sameLine, if_false] at h
      obtain ⟨k, found, rfl⟩ := Option.map_eq_some_iff.mp h
      rw [ih found (by simpa using fits), Option.map_some]

theorem tripleQuote_append {s : Text} (t : Text) (h : tripleQuote.isPrefixOf s = true) :
    tripleQuote.isPrefixOf (s ++ t) = true := by
  rw [List.isPrefixOf_iff_prefix] at *
  exact h.trans (List.prefix_append s t)

theorem blockTail_ge {s : Text} {n : Nat} (h : blockTail s = some n) : 3 ≤ n := by
  fun_induction blockTail s generalizing n with
  | case1 => cases h
  | case5 c r open_ plain ih =>
      obtain ⟨k, found, rfl⟩ := Option.map_eq_some_iff.mp h
      have later := ih found
      omega
  | _ =>
      cases h
      omega

/-- A block string that is closed is closed whatever follows, if not at the same place. -/
theorem blockTail_isSome {s : Text} (t : Text) (h : (blockTail s).isSome = true) :
    (blockTail (s ++ t)).isSome = true := by
  induction s using blockTail.induct with
  | case1 => simp [blockTail] at h
  | case2 c r closes =>
      rw [List.cons_append, blockTail, ← List.cons_append, if_pos (tripleQuote_append t closes)]
      rfl
  | case3 c r open_ escapes n later ih | case4 c r open_ escapes later ih =>
      rw [List.cons_append, blockTail]
      split
      · rfl
      · rw [if_pos ⟨escapes.1, tripleQuote_append t escapes.2⟩]
        split <;> rfl
  | case5 c r open_ plain ih =>
      rw [blockTail, if_neg open_, if_neg plain, Option.isSome_map] at h
      rw [List.cons_append, blockTail]
      split
      · rfl
      split
      · split <;> rfl
      · rw [Option.isSome_map]
        exact ih h

/-- A block string that ends inside a text ends at the same place if the text ends there. -/
theorem blockTail_cut {s t : Text} {n : Nat} (h : blockTail (s ++ t) = some n)
    (fits : n ≤ s.length) : blockTail s = some n := by
  induction s using blockTail.induct generalizing n with
  | case1 =>
      have atLeast := blockTail_ge h
      simp at fits
      omega
  | case2 c r closes =>
      rw [List.cons_append, blockTail, ← List.cons_append,
        if_pos (tripleQuote_append t closes)] at h
      rw [blockTail, if_pos closes, h]
  | case3 c r open_ escapes k later ih | case4 c r open_ escapes later ih =>
      have long : 3 ≤ r.length := (List.isPrefixOf_iff_prefix.mp escapes.2).length_le
      have longer : 3 ≤ (c :: r).length := Nat.le_succ_of_le long
      rw [List.cons_append, blockTail, ← List.cons_append, tripleQuote_context t longer,
        if_neg open_, if_pos ⟨escapes.1, tripleQuote_append t escapes.2⟩,
        List.drop_append_of_le_length long] at h
      have beyond := blockTail_isSome (s := r.drop 3) t
      rw [blockTail, if_neg open_, if_pos escapes]
      cases whole : blockTail (r.drop 3 ++ t) with
      | none => simp_all
      | some j =>
          simp only [whole, Option.some.injEq] at h
          have same := ih whole (by simp at fits ⊢; omega)
          simp only [same, h]
  | case5 c r open_ plain ih =>
      have atLeast := blockTail_ge h
      have longer : 3 ≤ (c :: r).length := by omega
      rw [List.cons_append, blockTail, ← List.cons_append, tripleQuote_context t longer,
        if_neg open_] at h
      rw [blockTail, if_neg open_, if_neg plain]
      split at h
      next escapes =>
        have long : 3 ≤ r.length := by
          split at h
          · next k found =>
              cases h
              simp at fits
              omega
          · cases h
            simpa using fits
        rw [tripleQuote_context t long] at escapes
        exact absurd escapes plain
      next =>
        obtain ⟨k, found, rfl⟩ := Option.map_eq_some_iff.mp h
        rw [ih found (by simpa using fits), Option.map_some]

/-- A string that ends before the cut ends at the same place in the text that is cut off. -/
theorem stringTail_cut {y t : Text} {n : Nat}
    (h : stringTail (y ++ closingBrace :: t) = some n) (fits : n ≤ y.length) :
    stringTail (y ++ [closingBrace]) = some n := by
  have whole : y ++ closingBrace :: t = (y ++ [closingBrace]) ++ t := by simp
  have inside : n ≤ (y ++ [closingBrace]).length := by simp; omega
  have quoted (h : quotedTail (y ++ closingBrace :: t) = some n) :
      quotedTail (y ++ [closingBrace]) = some n := quotedTail_cut (whole ▸ h) inside
  simp only [stringTail, tripleQuote_before_brace y t] at h ⊢
  split at h
  next triple =>
    have long : 2 ≤ y.length := by
      rcases y with _ | ⟨d, _ | ⟨e, y⟩⟩
      · simp [tripleQuote, closingBrace, List.isPrefixOf] at triple
      · simp [tripleQuote, closingBrace, List.isPrefixOf] at triple
      · simp
    rw [List.drop_append_of_le_length long] at h ⊢
    rw [if_pos triple]
    cases found : blockTail (y.drop 2 ++ closingBrace :: t) with
    | some k =>
        simp only [found, Option.map_some, Option.some_or, Option.some.injEq] at h
        have cut : blockTail (y.drop 2 ++ [closingBrace]) = some k :=
          blockTail_cut (t := t) (by simpa using found) (by simp; omega)
        simp only [cut, Option.map_some, Option.some_or, h]
    | none =>
        simp only [found, Option.map_none, Option.none_or] at h
        have cut : blockTail (y.drop 2 ++ [closingBrace]) = none := by
          have beyond := blockTail_isSome (s := y.drop 2 ++ [closingBrace]) t
          simpa [found, Option.isSome_iff_ne_none] using beyond
        simp only [cut, Option.map_none, Option.none_or, quoted h]
  next single =>
    rw [if_neg single, Option.none_or]
    exact quoted (by simpa using h)

/-! ## Pieces that end before a cut -/

/-- A piece that ends before the brace is the same in the text that ends with the brace. -/
theorem Piece.of_cut {c : CodePoint} {y t : Text}
    (fits : (Piece.of c (y ++ closingBrace :: t)).Fits y.length) :
    Piece.of c (y ++ [closingBrace]) = Piece.of c (y ++ closingBrace :: t) := by
  by_cases blank : c.isBlank = true
  · simp only [Piece.of, blank, if_true, Fits] at fits ⊢
    rw [takeWhile_cut fits]
  by_cases hash : c = .char '#'
  · subst hash
    simp only [Piece.of, blank, Bool.false_eq_true, if_false, if_true, Fits, lineTail] at fits ⊢
    rw [takeWhile_cut fits]
  by_cases slash : c = .char '/'
  · subst slash
    simp only [Piece.of, blank, hash, Bool.false_eq_true, if_false, if_true, head?_context]
      at fits ⊢
    by_cases line : (y ++ [closingBrace]).head? = some (.char '/')
    · simp only [line, if_true, Fits, lineTail] at fits ⊢
      rw [takeWhile_cut fits]
    by_cases block : (y ++ [closingBrace]).head? = some (.char '*')
    · rw [if_neg line, if_pos block] at fits ⊢
      rw [if_neg line, if_pos block]
      cases y with
      | nil => simp [closingBrace] at block
      | cons d y =>
          simp only [List.cons_append, List.drop_succ_cons, List.drop_zero] at fits ⊢
          cases found : commentTail (y ++ closingBrace :: t) with
          | none =>
              rw [found] at fits
              cases fits
          | some n =>
              simp only [found, Fits, List.length_cons] at fits
              have cut : commentTail (y ++ [closingBrace]) = some n :=
                commentTail_cut (t := t) (by simpa using found) (by simp; omega)
              simp only [cut]
    · rw [if_neg line, if_neg block, if_neg line, if_neg block]
  by_cases quote : c = .char '"'
  · subst quote
    rw [of_quote, of_quote]
    rw [of_quote] at fits
    cases found : stringTail (y ++ closingBrace :: t) with
    | none =>
        rw [found] at fits
        cases fits
    | some n =>
        simp only [found, Fits] at fits
        rw [stringTail_cut found fits]
  by_cases name : c.isNameStart = true
  · simp only [Piece.of, blank, hash, slash, quote, name, Bool.false_eq_true, if_false, if_true,
      Fits] at fits ⊢
    rw [takeWhile_cut fits]
  have number :
      numberTail (c :: (y ++ closingBrace :: t)) = numberTail (c :: (y ++ [closingBrace])) :=
    (numberTail_context (c :: y) t).trans (numberTail_context (c :: y) []).symm
  have signed : numberTail (y ++ closingBrace :: t) = numberTail (y ++ [closingBrace]) :=
    (numberTail_context y t).trans (numberTail_context y []).symm
  simp only [Piece.of, blank, hash, slash, quote, name, number, signed, Bool.false_eq_true,
    if_false]

/-! ## Scanning up to a cut -/

theorem lexeme_not_blank {c : CodePoint} {r : Text} {kind : Kind} {n : Nat}
    (h : Piece.of c r = .lexeme kind n) : c.isBlank = false := by
  cases blank : c.isBlank with
  | false => rfl
  | true => simp [Piece.of, blank] at h

/-- Does the lexeme stand in a text that begins at an offset, and begin with no blank? -/
def StandsIn (k : Nat) (s : Text) (l : Lexeme) : Prop :=
  ∃ front rest, s = front ++ (l.text ++ rest) ∧ l.start = k + front.length ∧
    ∃ c r, l.text = c :: r ∧ c.isBlank = false

theorem StandsIn.later {c : CodePoint} {r : Text} {k n : Nat} {l : Lexeme}
    (h : StandsIn (k + n + 1) (r.drop n) l) : StandsIn k (c :: r) l := by
  obtain ⟨front, rest, place, start, d, x, text, solid⟩ := h
  have inside : n < r.length := by
    have some_ : r.drop n ≠ [] := by simp [place, text]
    simpa using some_
  refine ⟨c :: r.take n ++ front, rest, ?_, ?_, d, x, text, solid⟩
  · rw [List.append_assoc, ← place, List.cons_append, List.take_append_drop]
  · rw [start, List.length_append, List.length_cons, List.length_take]
    omega

theorem scan_standsIn {k : Nat} {s : Text} {l : Lexeme} (h : l ∈ (scanWith Piece.of k s).1) :
    StandsIn k s l := by
  fun_induction scanWith Piece.of k s with
  | case1 => cases h
  | case2 k c r n found ih => exact (ih h).later
  | case3 k c r kind n found rest failure split ih =>
      rw [split] at ih
      obtain rfl | later := List.mem_cons.mp h
      · refine ⟨[], r.drop n, ?_, rfl, c, r.take n, rfl, lexeme_not_blank found⟩
        simp
      · exact (ih later).later
  | case4 => cases h

theorem scan_start {k : Nat} {s : Text} {l : Lexeme} (h : l ∈ (scanWith Piece.of k s).1) :
    k ≤ l.start := by
  obtain ⟨front, rest, -, start, -⟩ := scan_standsIn h
  omega

/-- A text in which a closing brace is read has, up to there, the lexemes of the text that ends with
    the brace. -/
theorem scan_cut {body t : Text} {k e : Nat} {before after : List Lexeme}
    (ends : e = k + body.length)
    (h : (scanWith Piece.of k (body ++ closingBrace :: t)).1 = before ++ brace e :: after) :
    scanWith Piece.of k (body ++ [closingBrace]) = (before ++ [brace e], none) := by
  match body with
  | [] =>
      obtain rfl : e = k := ends
      have piece (r : Text) : Piece.of closingBrace r = .lexeme .mark 0 := rfl
      rw [List.nil_append, scanWith, piece] at h
      rw [List.nil_append, scanWith, piece]
      cases before with
      | nil =>
          simp only [List.drop_zero, List.take_zero, scanWith_nil]
          rfl
      | cons first before =>
          have later : brace e ∈ (scanWith Piece.of (e + 0 + 1) (t.drop 0)).1 := by
            rw [(List.cons.inj h).2]
            simp
          have beyond := scan_start later
          simp only [brace] at beyond
          omega
  | c :: y =>
      rw [List.length_cons] at ends
      rw [List.cons_append, scanWith] at h
      rw [List.cons_append, scanWith]
      -- What follows the piece has the brace in it, so the piece ends before the brace.
      have inside {n : Nat} {before : List Lexeme}
          (rest : (scanWith Piece.of (k + n + 1) ((y ++ closingBrace :: t).drop n)).1 =
            before ++ brace e :: after) : n ≤ y.length := by
        have beyond := scan_start (l := brace e) (by rw [rest]; simp)
        simp only [brace] at beyond
        omega
      cases piece : Piece.of c (y ++ closingBrace :: t) with
      | unterminated what => simp [piece] at h
      | blank n =>
          simp only [piece] at h
          have fits := inside h
          have same := (Piece.of_cut (by rw [piece]; exact fits)).trans piece
          rw [List.drop_append_of_le_length fits] at h
          simp only [same]
          rw [List.drop_append_of_le_length fits]
          exact scan_cut (by rw [List.length_drop]; omega) h
      | lexeme kind n =>
          simp only [piece] at h
          cases before with
          | nil =>
              have head := (List.cons.inj h).1
              simp only [brace, Lexeme.mk.injEq] at head
              omega
          | cons first before =>
              obtain ⟨rfl, rest⟩ := List.cons.inj h
              have fits := inside rest
              have same := (Piece.of_cut (by rw [piece]; exact fits)).trans piece
              rw [List.drop_append_of_le_length fits] at rest
              have ih := scan_cut (by rw [List.length_drop]; omega) rest
              simp only [same]
              rw [List.drop_append_of_le_length fits, List.take_append_of_le_length fits,
                List.take_append_of_le_length fits, ih]
              rfl
termination_by body.length
decreasing_by all_goals simp only [List.length_cons, List.length_drop]; omega

/-- Where a text begins moves its lexemes and changes nothing else. -/
theorem scan_shift (piece : CodePoint → Text → Piece) (j k : Nat) (s : Text) :
    (scanWith piece (j + k) s).1 = (scanWith piece k s).1.map (shift j) ∧
      ((scanWith piece (j + k) s).2 = none ↔ (scanWith piece k s).2 = none) := by
  have offset (n : Nat) : j + k + n + 1 = j + (k + n + 1) := by omega
  match s with
  | [] => simp
  | c :: r =>
      rw [scanWith, scanWith.eq_def piece k]
      cases found : piece c r with
      | unterminated what => simp [found]
      | blank n =>
          simp only [found, offset n]
          exact scan_shift piece j (k + n + 1) (r.drop n)
      | lexeme kind n =>
          obtain ⟨lexemes, failure⟩ := scan_shift piece j (k + n + 1) (r.drop n)
          simp only [found, offset n, lexemes]
          exact ⟨rfl, failure⟩
termination_by s.length
decreasing_by all_goals simp only [List.length_cons, List.length_drop]; omega

/-- Read on its own, the text that ends with the brace has these lexemes from the offset 0 on. -/
theorem scan_cut_alone {body t : Text} {j : Nat} {before after : List Lexeme}
    (h : (scanWith Piece.of j (body ++ closingBrace :: t)).1 =
      before ++ brace (j + body.length) :: after) :
    ∃ before₀, scan (body ++ [closingBrace]) = (before₀ ++ [brace body.length], none) ∧
      before₀.map (shift j) = before := by
  obtain ⟨lexemes, failure⟩ := scan_shift Piece.of j 0 (body ++ [closingBrace])
  rw [Nat.add_zero, scan_cut rfl h] at lexemes failure
  obtain ⟨before₀, lasts, list, same, lasts_⟩ := List.map_eq_append_iff.mp lexemes.symm
  obtain ⟨brace₀, none_, rfl, last, none'⟩ := List.map_eq_cons_iff.mp lasts_
  obtain rfl := List.map_eq_nil_iff.mp none'
  obtain rfl : brace₀ = brace body.length := by
    obtain ⟨kind, text, start⟩ := brace₀
    simp only [shift, brace, Lexeme.mk.injEq] at last ⊢
    exact ⟨last.1, last.2.1, by omega⟩
  exact ⟨before₀, Prod.ext list (failure.mp rfl), same⟩

/-- A text that begins with a lexeme and ends with the brace is trimmed. -/
theorem trim_cut {body t r : Text} {d : CodePoint} (begins : body ++ closingBrace :: t = d :: r)
    (solid : d.isBlank = false) : Text.trim (body ++ [closingBrace]) = body ++ [closingBrace] := by
  obtain ⟨body', starts⟩ : ∃ body', body ++ [closingBrace] = d :: body' := by
    cases body with
    | nil => exact ⟨[], by rw [List.nil_append, (List.cons.inj begins).1]⟩
    | cons a body => exact ⟨body ++ [closingBrace], by rw [← (List.cons.inj begins).1]; rfl⟩
  exact Parts.trim_eq_self starts solid ⟨body, rfl⟩ (by decide)

/-! ## Lexemes that are alike -/

/-- Are the lexemes the same, wherever they stand, but for what a comment says? -/
def Alike (l l' : Lexeme) : Prop :=
  l'.kind = l.kind ∧ (l.kind = .comment ∨ l'.text = l.text)

/-- Are the lexemes the same, wherever they stand, but for what a comment or a string says? -/
def Similar (l l' : Lexeme) : Prop :=
  l'.kind = l.kind ∧ (l.kind = .comment ∨ l.kind = .string ∨ l'.text = l.text)

theorem Alike.similar {l l' : Lexeme} (h : Alike l l') : Similar l l' :=
  ⟨h.1, h.2.imp_right .inr⟩

theorem Similar.isMark {l l' : Lexeme} (h : Similar l l') (c : Char) : l'.isMark c = l.isMark c := by
  obtain ⟨kind, comment | string | text⟩ := h
  · simp [Lexeme.isMark, kind, comment]
  · simp [Lexeme.isMark, kind, string]
  · rw [Lexeme.isMark, Lexeme.isMark, kind, text]

theorem Similar.openedBy? {l l' : Lexeme} (h : Similar l l') :
    Region.openedBy? l' = Region.openedBy? l := by
  obtain ⟨kind, comment | string | text⟩ := h
  · simp [Region.openedBy?, kind, comment]
  · simp [Region.openedBy?, kind, string]
  · rw [Region.openedBy?, Region.openedBy?, kind, text]

theorem alike_shift (j : Nat) (ls : List Lexeme) : List.Forall₂ Alike (ls.map (shift j)) ls := by
  induction ls with
  | nil => exact .nil
  | cons l ls ih => exact .cons ⟨rfl, .inr rfl⟩ ih

end Lexeme

namespace Parts

open Lexeme

/-! ## Inside a region -/

/-- The walk after a lexeme that opens no region. -/
def Walk.pass (w : Walk) (l : Lexeme) : Walk :=
  if l.kind = .comment then w else w.count l

/-- Does none of the lexemes open a region? -/
def Walk.Quiet : Walk → List Lexeme → Prop
  | _, [] => True
  | w, l :: ls => (l.kind = .comment ∨ w.opened? l = none) ∧ (w.pass l).Quiet ls

/-- Do two walks open the same regions from here on? -/
def Walk.Abreast (w w' : Walk) : Prop :=
  w'.region = w.region ∧ w'.depth = w.depth ∧ w'.afterBrace = w.afterBrace

/-- The walk that has opened a region with a lexeme, as if nothing came before it. -/
def Walk.entered (region : Region) (l : Lexeme) : Walk :=
  ({ region, start := l.start } : Walk).count l

theorem quiet_step {w : Walk} {l : Lexeme} (t : Text)
    (quiet : l.kind = .comment ∨ w.opened? l = none) :
    w.step t l = .ok (w.pass l) := by
  unfold Walk.step Walk.pass
  split
  · rfl
  next noComment =>
    rw [Walk.enter, quiet.resolve_left noComment]
    rfl

theorem quiet_run {w : Walk} {ls : List Lexeme} (t : Text) (quiet : w.Quiet ls) :
    ls.foldlM (Walk.step t) w = .ok (ls.foldl Walk.pass w) := by
  induction ls generalizing w with
  | nil => rfl
  | cons l ls ih =>
      rw [List.foldlM_cons, quiet_step t quiet.1]
      exact ih quiet.2

theorem quiet_append {w : Walk} {ls more : List Lexeme} :
    w.Quiet (ls ++ more) ↔ w.Quiet ls ∧ (ls.foldl Walk.pass w).Quiet more := by
  induction ls generalizing w with
  | nil => simp [Walk.Quiet]
  | cons l ls ih => simp [Walk.Quiet, ih, and_assoc]

theorem opened?_similar {w w' : Walk} {l l' : Lexeme} (abreast : w.Abreast w')
    (similar : Similar l l') : w'.opened? l' = w.opened? l := by
  obtain ⟨region, depth, afterBrace⟩ := abreast
  unfold Walk.opened?
  rw [region, depth, afterBrace, similar.openedBy?, similar.isMark]

theorem pass_similar {w w' : Walk} {l l' : Lexeme} (abreast : w.Abreast w')
    (similar : Similar l l') : (w.pass l).Abreast (w'.pass l') := by
  obtain ⟨region, depth, afterBrace⟩ := abreast
  unfold Walk.pass
  rw [similar.1]
  split
  · exact ⟨region, depth, afterBrace⟩
  · exact ⟨region, by simp [Walk.count, depth, isOpening, isClosing, similar.isMark],
      similar.isMark '}'⟩

/-- Where a region begins in the text, and what its comments say, does not matter for what opens in
    it. -/
theorem quiet_alike {w w' : Walk} {ls ls' : List Lexeme} (abreast : w.Abreast w')
    (alike : List.Forall₂ Alike ls ls') :
    (w.Quiet ls ↔ w'.Quiet ls') ∧ (ls.foldl Walk.pass w).Abreast (ls'.foldl Walk.pass w') := by
  induction alike generalizing w w' with
  | nil => exact ⟨Iff.rfl, abreast⟩
  | cons first rest ih =>
      obtain ⟨quiet, after⟩ := ih (pass_similar abreast first.similar)
      refine ⟨?_, after⟩
      rw [Walk.Quiet, Walk.Quiet, opened?_similar abreast first.similar, first.1, quiet]

/-- Passing over lexemes changes neither the parts nor the region. -/
theorem foldl_pass (w : Walk) (ls : List Lexeme) :
    (ls.foldl Walk.pass w).parts = w.parts ∧ (ls.foldl Walk.pass w).region = w.region ∧
      (ls.foldl Walk.pass w).start = w.start := by
  induction ls generalizing w with
  | nil => exact ⟨rfl, rfl, rfl⟩
  | cons l ls ih =>
      have here : (w.pass l).parts = w.parts ∧ (w.pass l).region = w.region ∧
          (w.pass l).start = w.start := by
        unfold Walk.pass
        split <;> exact ⟨rfl, rfl, rfl⟩
      obtain ⟨parts, region, start⟩ := ih (w.pass l)
      exact ⟨parts.trans here.1, region.trans here.2.1, start.trans here.2.2⟩

theorem isMark_brace {l : Lexeme} (h : l.isMark '}' = true) : l = brace l.start := by
  obtain ⟨kind, text, start⟩ := l
  obtain ⟨rfl, rfl⟩ : kind = .mark ∧ text = [.char '}'] := by simpa [isMark] using h
  rfl

/-- The last closing brace is one of the lexemes passed over. -/
theorem foldl_close {w : Walk} {ls : List Lexeme} {c : Nat}
    (h : (ls.foldl Walk.pass w).close = some c) :
    w.close = some c ∨ ∃ before e after, ls = before ++ brace e :: after ∧ c = e + 1 := by
  induction ls generalizing w with
  | nil => exact .inl h
  | cons l ls ih =>
      obtain here | ⟨before, e, after, split, last⟩ := ih h
      · unfold Walk.pass Walk.count at here
        split at here
        · exact .inl here
        by_cases mark : l.isMark '}' = true
        · simp only [mark, if_true, Option.some.injEq] at here
          have same := isMark_brace mark
          refine .inr ⟨[], l.start, ls, by rw [← same]; rfl, ?_⟩
          rw [← here, same]
          rfl
        · simp only [mark] at here
          exact .inl here
      · exact .inr ⟨l :: before, e, after, by rw [split]; rfl, last⟩

/-- Has the walk opened its region with `first`, and passed over the lexemes `inside` since? -/
structure Walk.Begun (t : Text) (w : Walk) (k : Nat) (first : Lexeme) (inside : List Lexeme) :
    Prop where
  scanned : (scanWith Piece.of w.start (t.drop w.start)).1 =
    first :: (inside ++ (scanWith Piece.of k (t.drop k)).1)
  start : first.start = w.start
  noComment : first.kind ≠ .comment
  opens : Walk.opened? {} first = some w.region
  quiet : (Walk.entered w.region first).Quiet inside
  passed : inside.foldl Walk.pass (Walk.entered w.region first) = { w with parts := {} }

theorem Walk.Begun.past {t : Text} {w : Walk} {k k' : Nat} {first : Lexeme} {inside : List Lexeme}
    (begun : w.Begun t k first inside)
    (same : (scanWith Piece.of k (t.drop k)).1 = (scanWith Piece.of k' (t.drop k')).1) :
    w.Begun t k' first inside :=
  { begun with scanned := same ▸ begun.scanned }

theorem Walk.Begun.pass {t : Text} {w : Walk} {k k' : Nat} {first l : Lexeme} {inside : List Lexeme}
    (begun : w.Begun t k first inside)
    (next : (scanWith Piece.of k (t.drop k)).1 = l :: (scanWith Piece.of k' (t.drop k')).1)
    (quiet : l.kind = .comment ∨ w.opened? l = none) :
    (w.pass l).Begun t k' first (inside ++ [l]) := by
  obtain ⟨parts, region, start⟩ := foldl_pass w [l]
  simp only [List.foldl_cons, List.foldl_nil] at parts region start
  have alike : w.opened? l = Walk.opened? { w with parts := {} } l := rfl
  refine ⟨?_, begun.start.trans start.symm, begun.noComment, begun.opens.trans (by rw [region]),
    ?_, ?_⟩
  · rw [start, begun.scanned, next]
    simp
  · rw [region, quiet_append, begun.passed]
    exact ⟨begun.quiet, by rwa [← alike], trivial⟩
  · rw [region, List.foldl_append, begun.passed]
    simp only [List.foldl_cons, List.foldl_nil]
    unfold Walk.pass
    split <;> rfl

theorem opened?_first {w : Walk} {l : Lexeme} {region : Region} (h : w.opened? l = some region) :
    Walk.opened? {} l = some region ∧ w.depth = 0 := by
  unfold Walk.opened? at h ⊢
  split at h
  · cases h
  next top =>
    refine ⟨?_, by simpa using top⟩
    split at h
    · simpa using h
    split at h
    · simp [h]
    · cases h

/-- Opening a region begins it. -/
theorem begun_enter {t : Text} {w w' : Walk} {k k' : Nat} {l : Lexeme} {region : Region}
    (next : (scanWith Piece.of k (t.drop k)).1 = l :: (scanWith Piece.of k' (t.drop k')).1)
    (start : l.start = k) (noComment : l.kind ≠ .comment) (opens : w.opened? l = some region)
    (notVars : region ≠ .vars) (h : w.step t l = .ok w') :
    w'.region = region ∧ w'.Begun t k' l [] := by
  obtain ⟨first, top⟩ := opened?_first opens
  rw [Walk.step, if_neg noComment, Walk.enter, opens] at h
  obtain ⟨w₁, enter, counted⟩ := except_bind_ok h
  obtain ⟨parts, flushed, made⟩ := except_bind_ok enter
  cases made
  cases counted
  refine ⟨rfl, ?_, ?_, noComment, first, trivial, ?_⟩
  · simp [Walk.count, notVars, start, next]
  · simp [Walk.count, notVars]
  · simp [Walk.count, Walk.entered, notVars, top]

/-! ## Regions cut out -/

/-- A keyword or an opening brace does not close anything. -/
theorem opened?_noBrace {w : Walk} {l : Lexeme} {region : Region} (opens : w.opened? l = some region) :
    l.isMark '}' = false := by
  cases mark : l.isMark '}' with
  | false => rfl
  | true =>
      obtain ⟨opens, -⟩ := opened?_first opens
      rw [isMark_brace mark] at opens
      cases opens

theorem entered_close {region : Region} {l : Lexeme} (opens : Walk.opened? {} l = some region) :
    (Walk.entered region l).close = none := by
  simp [Walk.entered, Walk.count, opened?_noBrace opens]

/-- What is cut out at a closing brace ends with it. -/
theorem slice_brace {t body rest : Text} {m : Nat} (place : t.drop m = body ++ closingBrace :: rest) :
    slice t m (m + body.length + 1) = body ++ [closingBrace] := by
  have long : m + body.length + 1 - m = (body ++ [closingBrace]).length := by
    simp
    omega
  rw [slice, List.drop_take, place, long, List.append_cons body _ rest]
  exact List.take_left

/-- A text with one region, opened by its first lexeme and closed by its last one. -/
structure Alone (q : Text) (region : Region) (first : Lexeme) (inside : List Lexeme) : Prop where
  trimmed : q.trim = q
  scanned : scan q = (first :: (inside ++ [brace (q.length - 1)]), none)
  some_ : q ≠ []
  start : first.start = 0
  noComment : first.kind ≠ .comment
  opens : Walk.opened? {} first = some region
  notVars : region ≠ .vars
  quiet : (Walk.entered region first).Quiet (inside ++ [brace (q.length - 1)])

/-- What is cut out of a text after its last closing brace so far stands alone. -/
theorem Walk.Begun.alone {t : Text} {w : Walk} {k c : Nat} {first : Lexeme} {inside : List Lexeme}
    (begun : w.Begun t k first inside) (notVars : w.region ≠ .vars) (closed : w.close = some c) :
    ∃ first inside, Alone (slice t w.start c) w.region first inside := by
  have last : (inside.foldl Walk.pass (Walk.entered w.region first)).close = some c := by
    rw [begun.passed]
    exact closed
  obtain opening | ⟨before, e, after, rfl, rfl⟩ := foldl_close last
  · rw [entered_close begun.opens] at opening
    cases opening
  obtain ⟨body, rest, place, start, -⟩ := scan_standsIn (k := w.start) (s := t.drop w.start)
    (l := brace e) (by rw [begun.scanned]; simp)
  obtain ⟨front, rest', place', start', d, r, text, solid⟩ := scan_standsIn (k := w.start)
    (s := t.drop w.start) (l := first) (by rw [begun.scanned]; simp)
  have brace_ : t.drop w.start = body ++ closingBrace :: rest := place
  obtain rfl : e = w.start + body.length := start
  have cutOut := slice_brace brace_
  have scanned := begun.scanned
  rw [brace_, List.append_assoc, ← List.cons_append] at scanned
  obtain ⟨lexemes, cut, moved⟩ := scan_cut_alone scanned
  obtain ⟨first₀, before₀, rfl, same, same'⟩ := List.map_eq_cons_iff.mp moved
  have start₀ : w.start + first₀.start = w.start := (congrArg Lexeme.start same).trans begun.start
  have ends : (slice t w.start (w.start + body.length + 1)).length - 1 = body.length := by
    simp [cutOut]
  refine ⟨first₀, before₀, ?_, ?_, ?_, by omega, ?_, ?_, notVars, ?_⟩
  · have begins : front = [] := List.length_eq_zero_iff.mp (by have := begun.start; omega)
    rw [cutOut]
    refine trim_cut (t := rest) (r := r ++ rest') ?_ solid
    rw [← brace_, place', begins, text]
    rfl
  · rw [ends, cutOut]
    exact cut
  · simp [cutOut]
  · have noComment := begun.noComment
    rw [← same] at noComment
    exact noComment
  · rw [← begun.opens, ← same]
    rfl
  · have quiet := begun.quiet
    rw [List.append_cons, quiet_append] at quiet
    have abreast : (Walk.entered w.region first).Abreast (Walk.entered w.region first₀) := by
      rw [← same]
      exact ⟨rfl, rfl, rfl⟩
    refine (quiet_alike abreast (alike_shift w.start _)).1.mp ?_
    rw [ends, List.map_append, same']
    exact quiet.1

/-- Behind any other text, a text with one region is walked to its end, where the region is closed. -/
theorem Alone.run {q : Text} {region : Region} {first : Lexeme} {inside : List Lexeme}
    (alone : Alone q region first inside) (front : Text) {t : Text} {w : Walk} {p : Parts}
    (opens : w.opened? first = some region) (flush : w.flush t front.length = .ok p) :
    ∃ w', (scanWith Piece.of front.length q).1.foldlM (Walk.step t) w = .ok w' ∧
      (scanWith Piece.of front.length q).2 = none ∧ w'.parts = p ∧ w'.region = region ∧
      w'.start = front.length ∧ w'.close = some (front.length + q.length) := by
  obtain ⟨-, scanned, some_, start, noComment, -, notVars, quiet⟩ := alone
  have top := (opened?_first opens).2
  have moved : Alike first (first.shift front.length) := ⟨rfl, .inr rfl⟩
  have start' : (first.shift front.length).start = front.length := by
    rw [shift, start, Nat.add_zero]
  obtain ⟨lexemes, complete⟩ := scan_shift Piece.of front.length 0 q
  rw [scan] at scanned
  rw [Nat.add_zero, scanned] at lexemes complete
  let w₁ := Walk.count { w with parts := p, region, start := front.length, close := none }
    (first.shift front.length)
  have opening : w.step t (first.shift front.length) = .ok w₁ := by
    have plain : (first.shift front.length).kind ≠ .comment := noComment
    rw [Walk.step, if_neg plain, Walk.enter, opened?_similar ⟨rfl, rfl, rfl⟩ moved.similar, opens, start']
    simp only [flush, if_neg notVars]
    rfl
  have abreast : w₁.Abreast (Walk.entered region first) := by
    refine ⟨rfl, ?_, rfl⟩
    simp only [w₁, Walk.entered, Walk.count, top]
    rfl
  have quiet' := (quiet_alike abreast (alike_shift front.length _)).1.mpr quiet
  obtain ⟨parts, region_, begins⟩ :=
    foldl_pass w₁ ((inside ++ [brace (q.length - 1)]).map (shift front.length))
  refine ⟨_, ?_, complete.mpr rfl, parts, region_, begins, ?_⟩
  · rw [lexemes, List.map_cons, List.foldlM_cons, opening]
    exact quiet_run t quiet'
  · have long : q.length - 1 + 1 = q.length := Nat.sub_add_cancel (List.length_pos_iff.mpr some_)
    rw [List.map_append, List.foldl_append, ← long]
    rfl

/-- A text with one region is cut into that region. -/
theorem Alone.cut {q : Text} {region : Region} {first : Lexeme} {inside : List Lexeme}
    (alone : Alone q region first inside) :
    ∃ w : Walk, w.parts = {} ∧ w.region = region ∧ w.start = 0 ∧ w.close = some q.length ∧
      ofText q = w.flush q q.length := by
  obtain ⟨w, run, complete, parts, region_, start, close⟩ :=
    alone.run [] (t := q) (w := {}) alone.opens rfl
  refine ⟨w, parts, region_, start, close.trans (congrArg some (Nat.zero_add _)), ?_⟩
  have failure : (scan q).2 = none := complete
  have walked : (scan q).1.foldlM (Walk.step q) {} = .ok w := run
  simp only [ofText, failure, walked, bind, Except.bind]

theorem Alone.query {q : Text} {first : Lexeme} {inside : List Lexeme}
    (alone : Alone q .query first inside) : ofText q = .ok { query := q } := by
  obtain ⟨w, parts, region, start, close, cut⟩ := alone.cut
  rw [cut, Walk.flush, region, close, start, parts]
  simp [slice, alone.trimmed]

theorem Alone.fragment {q name : Text} {first : Lexeme} {inside : List Lexeme}
    (alone : Alone q .fragment first inside) (named : Fragment.nameOf q = .ok name) :
    ofText q = .ok { fragments := [⟨name, q⟩] } := by
  obtain ⟨w, parts, region, start, close, cut⟩ := alone.cut
  rw [cut, Walk.flush, region, close, start, parts]
  simp [slice, alone.trimmed, named, bind, pure, Except.bind, Except.pure]

/-! ## The walk -/

section

variable {t : Text} {I : Walk → Nat → Prop}

/-- What every lexeme of a text leaves true of the walk, and of the offset at which the next one is
    read, is true in the end. -/
theorem run_keeps {s : Text} {w w' : Walk} {k : Nat}
    (past : ∀ w k k', I w k → k < k' →
      (scanWith Piece.of k (t.drop k)).1 = (scanWith Piece.of k' (t.drop k')).1 → I w k')
    (step : ∀ w w' l k k', I w k → k < k' →
      (scanWith Piece.of k (t.drop k)).1 = l :: (scanWith Piece.of k' (t.drop k')).1 →
      l.start = k → w.step t l = .ok w' → I w' k')
    (place : t.drop k = s) (begin_ : I w k)
    (h : (scanWith Piece.of k s).1.foldlM (Walk.step t) w = .ok w') : ∃ k', I w' k' := by
  fun_induction scanWith Piece.of k s generalizing w with
  | case1 k =>
      cases h
      exact ⟨k, begin_⟩
  | case2 k c r n found ih =>
      have later := drop_past place n
      refine ih later (past w k _ begin_ (by omega) ?_) h
      rw [place, later, scanWith, found]
  | case3 k c r kind n found rest failure split ih =>
      have split₁ : (scanWith Piece.of (k + n + 1) (r.drop n)).1 = rest := congrArg Prod.fst split
      rw [split₁] at ih
      rw [List.foldlM_cons] at h
      obtain ⟨w₁, first, run⟩ := except_bind_ok h
      have later := drop_past place n
      refine ih later (step w w₁ _ k _ begin_ (by omega) ?_ rfl first) run
      rw [place, later, scanWith, found]
  | case4 k c r what found =>
      cases h
      exact ⟨k, begin_⟩

end

/-- Is every operation and fragment that the walk has cut out one that is cut into itself, and is
    the open region one that will be? -/
structure Walk.Fixed (t : Text) (w : Walk) (k : Nat) : Prop where
  query : w.parts.query = [] ∨ ∃ first inside, Alone w.parts.query .query first inside
  fragments : ∀ f ∈ w.parts.fragments, ofText f.value = .ok { fragments := [f] }
  opened : w.region = .query ∨ w.region = .fragment → ∃ first inside, w.Begun t k first inside

theorem flush_fixed {t : Text} {w : Walk} {k stop : Nat} {p : Parts} (fixed : w.Fixed t k)
    (h : w.flush t stop = .ok p) :
    (p.query = [] ∨ ∃ first inside, Alone p.query .query first inside) ∧
      ∀ f ∈ p.fragments, ofText f.value = .ok { fragments := [f] } := by
  obtain ⟨parts, region, start, close, depth, afterBrace⟩ := w
  obtain ⟨query, fragments, opened⟩ := fixed
  cases region with
  | comment =>
      cases h
      exact ⟨query, fragments⟩
  | vars =>
      cases close with
      | none => cases h
      | some close =>
          cases h
          exact ⟨query, fragments⟩
  | query =>
      cases close with
      | none => cases h
      | some close =>
          obtain ⟨first, inside, begun⟩ := opened (.inl rfl)
          obtain ⟨first, inside, alone⟩ := begun.alone (by simp) rfl
          simp only [Walk.flush, alone.trimmed] at h
          split at h
          · cases h
            exact ⟨.inr ⟨first, inside, alone⟩, fragments⟩
          · cases h
  | fragment =>
      cases close with
      | none => cases h
      | some close =>
          obtain ⟨first, inside, begun⟩ := opened (.inr rfl)
          obtain ⟨first, inside, alone⟩ := begun.alone (by simp) rfl
          simp only [Walk.flush, alone.trimmed] at h
          obtain ⟨name, named, made⟩ := except_bind_ok h
          cases made
          refine ⟨query, fun f among => ?_⟩
          obtain before | last := List.mem_append.mp among
          · exact fragments f before
          · rw [List.mem_singleton.mp last]
            exact alone.fragment named

theorem past_fixed {t : Text} (w : Walk) (k k' : Nat) (fixed : w.Fixed t k) (_ : k < k')
    (same : (scanWith Piece.of k (t.drop k)).1 = (scanWith Piece.of k' (t.drop k')).1) :
    w.Fixed t k' := by
  refine ⟨fixed.query, fixed.fragments, fun open_ => ?_⟩
  obtain ⟨first, inside, begun⟩ := fixed.opened open_
  exact ⟨first, inside, begun.past same⟩

theorem step_fixed {t : Text} (w w' : Walk) (l : Lexeme) (k k' : Nat) (fixed : w.Fixed t k)
    (_ : k < k') (next : (scanWith Piece.of k (t.drop k)).1 = l :: (scanWith Piece.of k' (t.drop k')).1)
    (start : l.start = k) (h : w.step t l = .ok w') : w'.Fixed t k' := by
  by_cases quiet : l.kind = .comment ∨ w.opened? l = none
  · rw [quiet_step t quiet] at h
    cases h
    obtain ⟨parts, region, -⟩ := foldl_pass w [l]
    simp only [List.foldl_cons, List.foldl_nil] at parts region
    refine ⟨parts ▸ fixed.query, parts ▸ fixed.fragments, fun open_ => ?_⟩
    obtain ⟨first, inside, begun⟩ := fixed.opened (region ▸ open_)
    exact ⟨first, inside ++ [l], begun.pass next quiet⟩
  · obtain ⟨noComment, opens⟩ := not_or.mp quiet
    obtain ⟨region, opens⟩ := Option.ne_none_iff_exists'.mp opens
    have stepped := h
    rw [Walk.step, if_neg noComment, Walk.enter, opens] at h
    obtain ⟨w₁, enter, counted⟩ := except_bind_ok h
    obtain ⟨parts, flushed, made⟩ := except_bind_ok enter
    cases made
    cases counted
    obtain ⟨query, fragments⟩ := flush_fixed fixed flushed
    refine ⟨query, fragments, fun (open_ : region = .query ∨ region = .fragment) => ?_⟩
    have notVars : region ≠ .vars := by
      rintro rfl
      simp at open_
    exact ⟨l, [], (begun_enter next start noComment opens notVars stepped).2⟩

/-- The operation that is cut out of a document stands alone, and each fragment is, as a document of
    its own, cut into itself. -/
theorem ofText_alone {t : Text} {p : Parts} (h : ofText t = .ok p) :
    (p.query = [] ∨ ∃ first inside, Alone p.query .query first inside) ∧
      ∀ f ∈ p.fragments, ofText f.value = .ok { fragments := [f] } := by
  obtain ⟨w, run, last⟩ := except_bind_ok h
  have start : Walk.Fixed t {} 0 := ⟨.inl rfl, by simp, by rintro (none_ | none_) <;> cases none_⟩
  obtain ⟨k, fixed⟩ := run_keeps past_fixed step_fixed (s := t) rfl start run
  split at last
  next => cases last
  next => exact flush_fixed fixed last

/-- An operation that stands alone, or no operation, is cut into itself. -/
theorem query_fixed {q : Text} (h : q = [] ∨ ∃ first inside, Alone q .query first inside) :
    ofText q = .ok { query := q } := by
  obtain rfl | ⟨first, inside, alone⟩ := h
  · rw [ofText, scan, scanWith_nil]
    rfl
  · exact alone.query

/-- Each operation and fragment that is cut out of a document is, as a document of its own, cut into
    itself. -/
theorem ofText_fixed {t : Text} {p : Parts} (h : ofText t = .ok p) :
    ofText p.query = .ok { query := p.query } ∧
      ∀ f ∈ p.fragments, ofText f.value = .ok { fragments := [f] } :=
  ⟨query_fixed (ofText_alone h).1, (ofText_alone h).2⟩

/-- The backslash in front of the quotes that end the string does not reach across the cut. -/
theorem ofText_fixed_of_blockString :
    ∃ p, ofText (Text.ofString "# a\nvariables \x7b\x7d" ++
        Text.ofString "fragment F on T \x7bb(c:\"\"\"\\\"\"\")\x7d mutation M \x7bd\x7d \"\"") = .ok p ∧
      p.query = "mutation M \x7bd\x7d" ∧
      p.fragments = [⟨"F", "fragment F on T \x7bb(c:\"\"\"\\\"\"\")\x7d"⟩] ∧
      ofText p.query = .ok { query := p.query } ∧
      ∀ f ∈ p.fragments, ofText f.value = .ok { fragments := [f] } := by
  have cut : ofText (Text.ofString "# a\nvariables \x7b\x7d" ++
        Text.ofString "fragment F on T \x7bb(c:\"\"\"\\\"\"\")\x7d mutation M \x7bd\x7d \"\"") = .ok {
      comment := "# a"
      vars := "\x7b\x7d"
      query := "mutation M \x7bd\x7d"
      fragments := [⟨"F", "fragment F on T \x7bb(c:\"\"\"\\\"\"\")\x7d"⟩] } :=
    except_ok (by decide +kernel)
  exact ⟨_, cut, rfl, rfl, ofText_fixed cut⟩

end Parts

end ApprovedOps
