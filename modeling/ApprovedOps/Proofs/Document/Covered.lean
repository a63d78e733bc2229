import ApprovedOps.Proofs.Document.Divided

/-! # Lexemes and blanks make up the document

No code point of a document is passed over or read twice. The lexemes stand one behind the other,
each with the text between its offsets, and all that is around them is blank. Where something is
left open this holds of what stands in front of it.
-/

namespace ApprovedOps.Lexeme

/-- What opens a block comment or a string. -/
def Bracketed.opening : Bracketed → Text
  | .comment => [.char '/', .char '*']
  | .string => [.char '"']

/-- Is the text, which begins at an offset, made of the lexemes in turn, with nothing but blanks in
    front of each and behind the last? -/
inductive Covers : Nat → Text → List Lexeme → Prop where
  | blanks {k gap} : (∀ c ∈ gap, c.isBlank = true) → Covers k gap []
  | lexeme {k gap l rest ls} : (∀ c ∈ gap, c.isBlank = true) → l.text ≠ [] →
      l.start = k + gap.length → Covers l.stop rest ls →
      Covers k (gap ++ (l.text ++ rest)) (l :: ls)

namespace Covers

variable {k : Nat} {s : Text} {ls : List Lexeme} {l : Lexeme}

theorem behind {b : Text} (blanks : ∀ c ∈ b, c.isBlank = true) (h : Covers (k + b.length) s ls) :
    Covers k (b ++ s) ls := by
  have both {gap : Text} (more : ∀ c ∈ gap, c.isBlank = true) :
      ∀ c ∈ b ++ gap, c.isBlank = true := by
    intro c among
    exact (List.mem_append.mp among).elim (blanks c) (more c)
  cases h with
  | blanks more => exact .blanks (both more)
  | lexeme more some_ start rest =>
      rw [← List.append_assoc]
      apply Covers.lexeme (both more) some_ _ rest
      rw [start, List.length_append, Nat.add_assoc]

/-- A lexeme stands where it says, inside the text. -/
theorem place (h : Covers k s ls) (among : l ∈ ls) :
    l.text ≠ [] ∧ ∃ front rest, s = front ++ (l.text ++ rest) ∧ l.start = k + front.length := by
  induction h with
  | blanks => cases among
  | @lexeme k gap m rest ls _ some_ start _ ih =>
      obtain rfl | later := List.mem_cons.mp among
      · exact ⟨some_, gap, rest, rfl, start⟩
      · obtain ⟨some', front, back, text, start'⟩ := ih later
        refine ⟨some', gap ++ (m.text ++ front), back, ?_, ?_⟩
        · rw [text]
          simp
        · rw [start', stop, start]
          simp only [List.length_append]
          omega

/-- A lexeme has the text between its offsets, also in a longer text. -/
theorem inside (h : Covers 0 s ls) (among : l ∈ ls) (rest : Text) :
    l.text ≠ [] ∧ l.stop ≤ s.length ∧ Parts.slice (s ++ rest) l.start l.stop = l.text := by
  obtain ⟨some_, front, back, whole, start⟩ := h.place among
  rw [Nat.zero_add] at start
  have stop : l.stop = front.length + l.text.length := by rw [Lexeme.stop, start]
  refine ⟨some_, ?_, ?_⟩
  · rw [whole, stop, List.length_append, List.length_append]
    omega
  · rw [whole, start, stop, List.append_assoc, List.append_assoc]
    exact Parts.slice_middle front l.text (back ++ rest)

/-- The lexemes are in order and do not overlap. -/
theorem ordered (h : Covers k s ls) : ls.Pairwise fun l m => l.stop ≤ m.start := by
  induction h with
  | blanks => exact .nil
  | lexeme _ _ _ rest ih =>
      apply List.Pairwise.cons _ ih
      intro m later
      obtain ⟨-, front, -, -, start⟩ := rest.place later
      omega

/-- What is in no lexeme is blank. -/
theorem between {i : Nat} {c : CodePoint} (h : Covers k s ls) (at_ : s[i]? = some c)
    (outside : ∀ l ∈ ls, ¬(l.start ≤ k + i ∧ k + i < l.stop)) : c.isBlank = true := by
  induction h generalizing i with
  | blanks blanks => exact blanks c (List.mem_of_getElem? at_)
  | @lexeme k gap l rest ls blanks _ start _ ih =>
      by_cases before : i < gap.length
      · rw [List.getElem?_append_left before] at at_
        exact blanks c (List.mem_of_getElem? at_)
      · have past := outside l List.mem_cons_self
        have stop : l.stop = k + gap.length + l.text.length := by rw [stop, start]
        have after : gap.length + l.text.length ≤ i := by omega
        rw [List.getElem?_append_right (by omega), List.getElem?_append_right (by omega)] at at_
        apply ih at_
        intro m later
        have here : l.stop + (i - gap.length - l.text.length) = k + i := by omega
        rw [here]
        exact outside m (List.mem_cons_of_mem l later)

end Covers

/-! ## What one piece takes -/

variable {c : CodePoint} {r : Text}

theorem blank_within {n : Nat} (h : Piece.of c r = .blank n) : n ≤ r.length := by
  cases blank : c.isBlank with
  | false => exact absurd h (piece_solid blank r n)
  | true =>
      simp only [Piece.of, blank, if_true, Piece.blank.injEq] at h
      rw [← h]
      exact (List.takeWhile_sublist _).length_le

/-- No kind of lexeme takes more than is there. -/
theorem lexeme_within {kind : Kind} {n : Nat} (h : Piece.of c r = .lexeme kind n) :
    n ≤ r.length := by
  have run (p : CodePoint → Bool) : (r.takeWhile p).length ≤ r.length :=
    (List.takeWhile_sublist p).length_le
  have unsigned := numberTail_le (c :: r)
  have signed := numberTail_le r
  rw [List.length_cons] at unsigned
  unfold Piece.of at h
  split at h
  · cases h
  split at h
  · cases h
    exact run _
  split at h
  · split at h
    · cases h
      exact run _
    split at h
    · split at h
      next m found =>
        cases h
        obtain ⟨x, rest, text, rfl⟩ := commentTail_ends found
        have size := congrArg List.length text
        simp at size
        omega
      next => cases h
    · cases h
      exact Nat.zero_le _
  split at h
  · split at h
    next m found =>
      cases h
      obtain ⟨x, rest, rfl, rfl⟩ := stringTail_ends found
      simp
    next => cases h
  split at h
  · cases h
    exact run _
  split at h
  · cases h
    omega
  split at h
  · split at h <;> cases h <;> omega
  · cases h
    exact Nat.zero_le _

/-- What is left open begins with what opens it. -/
theorem opening_of_open {what : Bracketed} (h : Piece.of c r = .unterminated what) :
    what.opening <+: c :: r := by
  unfold Piece.of at h
  split at h
  · cases h
  split at h
  · cases h
  split at h
  next slash =>
    split at h
    · cases h
    split at h
    next star =>
      split at h
      · cases h
      cases h
      obtain ⟨rest, rfl⟩ := List.head?_eq_some_iff.mp star
      exact ⟨rest, by rw [slash]; rfl⟩
    · cases h
  split at h
  next quote =>
    split at h
    · cases h
    cases h
    exact ⟨r, by rw [quote]; rfl⟩
  split at h
  · cases h
  split at h
  · cases h
  split at h
  · split at h <;> cases h
  · cases h

/-! ## What the whole reading takes -/

/-- Is nothing left to be read, or is something left open at the offset? -/
def Stops (k : Nat) (rest : Text) : Option Unterminated → Prop
  | none => rest = []
  | some open_ => open_.start = k ∧ open_.what.opening <+: rest

theorem scan_covers (k : Nat) (s : Text) :
    ∃ read rest, s = read ++ rest ∧ Covers k read (scanWith Piece.of k s).1 ∧
      Stops (k + read.length) rest (scanWith Piece.of k s).2 := by
  -- A piece takes the code points `c :: r.take n`, and the reading goes on behind them.
  have taken {n : Nat} (r : Text) (within : n ≤ r.length) (c : CodePoint) :
      (c :: r.take n).length = n + 1 := by
    rw [List.length_cons, List.length_take, Nat.min_eq_left within]
  have split {n : Nat} {r read rest : Text} (c : CodePoint) (text : r.drop n = read ++ rest) :
      c :: r = (c :: r.take n ++ read) ++ rest := by
    rw [List.append_assoc, ← text, List.cons_append, List.take_append_drop]
  fun_induction scanWith Piece.of k s with
  | case1 k => exact ⟨[], [], rfl, .blanks (List.forall_mem_nil _), rfl⟩
  | case2 k c r n found ih =>
      obtain ⟨read, rest, text, covers, stops⟩ := ih
      have size := taken r (blank_within found) c
      refine ⟨c :: r.take n ++ read, rest, split c text, ?_, ?_⟩
      · apply Covers.behind (piece_blanks found)
        rwa [size]
      · rwa [List.length_append, size, ← Nat.add_assoc]
  | case3 k c r kind n found ls failure scanned ih =>
      rw [scanned] at ih
      obtain ⟨read, rest, text, covers, stops⟩ := ih
      have size := taken r (lexeme_within found) c
      refine ⟨c :: r.take n ++ read, rest, split c text, ?_, ?_⟩
      · have next : Covers (stop ⟨kind, c :: r.take n, k⟩) read ls := by
          rwa [stop, size]
        exact .lexeme (List.forall_mem_nil _) (List.cons_ne_nil c (r.take n)) rfl next
      · rwa [List.length_append, size, ← Nat.add_assoc]
  | case4 k c r what found =>
      exact ⟨[], c :: r, rfl, .blanks (List.forall_mem_nil _), rfl, opening_of_open found⟩

/-- How far a document is read: to its end, or up to what is left open. -/
def reached (t : Text) : Nat :=
  (scan t).2.elim t.length (·.start)

/-- The document up to where it is read is covered, and there the reading stops. -/
theorem scan_reached (t : Text) : reached t ≤ t.length ∧
    Covers 0 (t.take (reached t)) (scan t).1 ∧ Stops (reached t) (t.drop (reached t)) (scan t).2 := by
  obtain ⟨read, rest, text, covers, stops⟩ := scan_covers 0 t
  change Covers 0 read (scan t).1 at covers
  change Stops (0 + read.length) rest (scan t).2 at stops
  rw [Nat.zero_add] at stops
  have size : reached t = read.length := by
    rw [reached]
    cases failure : (scan t).2 with
    | none =>
        rw [failure] at stops
        obtain rfl : rest = [] := stops
        rw [Option.elim_none, text, List.append_nil]
    | some open_ =>
        rw [failure] at stops
        exact stops.1
  have front : t.take (reached t) = read := by rw [size, text, List.take_left]
  have behind : t.drop (reached t) = rest := by rw [size, text, List.drop_left]
  refine ⟨?_, ?_, ?_⟩
  · rw [size, text, List.length_append]
    exact Nat.le_add_right _ _
  · rwa [front]
  · rwa [behind, size]

/-- The lexemes of a document and the blanks around them are the document, as far as it is read. The
    lexemes are not empty, each has the text between its offsets, they are in order and do not
    overlap, and a code point in none of them is blank. The reading stops before the end only at
    what opens a comment or a string. -/
theorem scan_lossless (t : Text) :
    reached t ≤ t.length ∧ Covers 0 (t.take (reached t)) (scan t).1 ∧
      (∀ l ∈ (scan t).1, l.text ≠ [] ∧ l.stop ≤ reached t ∧
        Parts.slice t l.start l.stop = l.text) ∧
      (scan t).1.Pairwise (fun l m => l.stop ≤ m.start) ∧
      (∀ i c, i < reached t → t[i]? = some c →
        (∀ l ∈ (scan t).1, ¬(l.start ≤ i ∧ i < l.stop)) → c.isBlank = true) ∧
      ∀ open_ ∈ (scan t).2, open_.what.opening <+: t.drop (reached t) := by
  obtain ⟨within, covers, stops⟩ := scan_reached t
  refine ⟨within, covers, ?_, covers.ordered, ?_, ?_⟩
  · intro l among
    have inside := covers.inside among (t.drop (reached t))
    rwa [List.take_append_drop, List.length_take, Nat.min_eq_left within] at inside
  · intro i c before at_ outside
    have at' : (t.take (reached t))[i]? = some c := by rwa [List.getElem?_take_of_lt before]
    apply covers.between at'
    intro l among
    rw [Nat.zero_add]
    exact outside l among
  · intro open_ failure
    rw [Option.mem_def] at failure
    rw [failure] at stops
    exact stops.2

end ApprovedOps.Lexeme
