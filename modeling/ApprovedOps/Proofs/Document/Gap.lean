import ApprovedOps.Proofs.Document.Context

/-! # Gaps between blocks

What stands before, between and after the blocks of a document: blanks and comments that end. Only
comments are read there, and nothing of what follows is changed by it.
-/

namespace ApprovedOps

namespace Lexeme

/-- What opens a comment that ends with its line. -/
def IsLineMark (mark : Text) : Prop :=
  mark = [.char '#'] ∨ mark = [.char '/', .char '/']

/-- What ends a block comment. -/
def commentEnd : Text :=
  [.char '*', .char '/']

/-- Blanks and comments that end. A comment to the end of its line needs a line break, unless the
    document ends with it. -/
inductive Gap : (atEnd : Bool) → Text → Prop where
  | nil {atEnd} : Gap atEnd []
  | blank {atEnd c s} : c.isBlank = true → Gap atEnd s → Gap atEnd (c :: s)
  /-- `# …` or `// …` and the line break after it. -/
  | line {atEnd mark inside s} : IsLineMark mark → .char '\n' ∉ inside → Gap atEnd s →
      Gap atEnd (mark ++ inside ++ .char '\n' :: s)
  /-- `# …` or `// …` in the last line. -/
  | lastLine {mark inside} : IsLineMark mark → .char '\n' ∉ inside → Gap true (mark ++ inside)
  /-- A block comment, which ends with the first `*/`. -/
  | block {atEnd inside s} : ¬commentEnd <:+: inside → Gap atEnd s →
      Gap atEnd (.char '/' :: .char '*' :: inside ++ commentEnd ++ s)

/-- A reading that takes blanks in runs is not changed by a blank, only moved. -/
theorem scan_blank_of {piece : CodePoint → Text → Piece}
    (runs : ∀ c r, c.isBlank = true → piece c r = .blank (r.takeWhile CodePoint.isBlank).length)
    {c : CodePoint} (blank : c.isBlank = true) (k : Nat) (s : Text) :
    scanWith piece k (c :: s) = scanWith piece (k + 1) s := by
  have run (k : Nat) (c : CodePoint) (s : Text) (blank : c.isBlank = true) :
      scanWith piece k (c :: s) =
        scanWith piece (k + (s.takeWhile CodePoint.isBlank).length + 1)
          (s.drop (s.takeWhile CodePoint.isBlank).length) := by
    rw [scanWith]
    simp only [runs c s blank]
  rw [run k c s blank]
  cases s with
  | nil => rfl
  | cons d s =>
      cases next : d.isBlank with
      | false => simp [next]
      | true =>
          rw [run (k + 1) d s next]
          simp only [List.takeWhile_cons, next, if_true, List.length_cons, List.drop_succ_cons]
          congr 1
          omega

/-- Blanks only move what follows. -/
theorem scan_blank {c : CodePoint} (blank : c.isBlank = true) (k : Nat) (s : Text) :
    scanWith Piece.of k (c :: s) = scanWith Piece.of (k + 1) s :=
  scan_blank_of (fun c r blank => by simp only [Piece.of, blank, if_true]) blank k s

/-- How far a comment goes that ends with its line. -/
theorem lineTail_line {inside : Text} (oneLine : .char '\n' ∉ inside) (s : Text) :
    lineTail (inside ++ .char '\n' :: s) = inside.length ∧ lineTail inside = inside.length := by
  have all : ∀ c ∈ inside, decide (c ≠ .char '\n') = true := by
    intro c member
    have other : c ≠ .char '\n' := fun same => oneLine (same ▸ member)
    simpa using other
  constructor
  · rw [lineTail, List.takeWhile_append_of_pos all]
    simp
  · have whole : (inside ++ []).takeWhile (· ≠ CodePoint.char '\n') = inside ++ [] := by
      rw [List.takeWhile_append_of_pos all, List.takeWhile_nil]
    simpa [lineTail] using congrArg List.length whole

/-- How far a block comment goes. -/
theorem commentTail_block {inside : Text} (noEnd : ¬commentEnd <:+: inside) (s : Text) :
    commentTail (inside ++ commentEnd ++ s) = some (inside.length + 2) := by
  induction inside with
  | nil => rfl
  | cons c r ih =>
      have later : ¬commentEnd <:+: r := fun found => noEnd (List.infix_cons found)
      have goesOn : ¬(c = .char '*' ∧ (r ++ commentEnd ++ s).head? = some (.char '/')) := by
        rintro ⟨rfl, slash⟩
        cases r with
        | nil => simp [commentEnd] at slash
        | cons d r =>
            obtain rfl : d = .char '/' := by simpa using slash
            exact noEnd ⟨[], r, rfl⟩
      rw [List.cons_append, List.cons_append, commentTail, if_neg goesOn, ih later]
      rfl

/-- Are only comments read in a text that stands in front of another? -/
def Passes (s t : Text) : Prop :=
  ∀ k, ∃ comments : List Lexeme, (∀ l ∈ comments, l.kind = .comment) ∧
    scanWith Piece.of k (s ++ t) =
      (comments ++ (scanWith Piece.of (k + s.length) t).1,
        (scanWith Piece.of (k + s.length) t).2)

theorem passes_append {s u t : Text} (first : Passes s (u ++ t)) (then_ : Passes u t) :
    Passes (s ++ u) t := by
  intro k
  obtain ⟨comments, all, scan⟩ := first k
  obtain ⟨more, all', scan'⟩ := then_ (k + s.length)
  refine ⟨comments ++ more, ?_, ?_⟩
  · intro l member
    exact (List.mem_append.mp member).elim (all l) (all' l)
  · rw [List.append_assoc, scan, scan', List.length_append, ← Nat.add_assoc, List.append_assoc]

theorem passes_blank {c : CodePoint} (blank : c.isBlank = true) (t : Text) : Passes [c] t :=
  fun k => ⟨[], by simp, scan_blank blank k t⟩

/-- A comment is passed, and the text that it takes is its own. -/
theorem passes_comment {c : CodePoint} {x t : Text}
    (comment : Piece.of c (x ++ t) = .lexeme .comment x.length) : Passes (c :: x) t := by
  intro k
  refine ⟨[⟨.comment, c :: x, k⟩], by simp, ?_⟩
  rw [List.cons_append, scanWith, comment]
  simp [Nat.add_assoc]

theorem passes_line {mark inside t : Text} (opens : IsLineMark mark)
    (oneLine : .char '\n' ∉ inside) (ends : t = [] ∨ t.head? = some (.char '\n')) :
    Passes (mark ++ inside) t := by
  have reach (x : Text) (inLine : .char '\n' ∉ x) : lineTail (x ++ t) = x.length := by
    cases t with
    | nil => rw [List.append_nil, (lineTail_line inLine []).2]
    | cons c t =>
        obtain rfl : c = .char '\n' := by simpa using ends
        exact (lineTail_line inLine t).1
  obtain rfl | rfl := opens
  · have hash : Piece.of (.char '#') (inside ++ t) = .lexeme .comment (lineTail (inside ++ t)) :=
      rfl
    rw [reach inside oneLine] at hash
    exact passes_comment hash
  · have longer : .char '\n' ∉ CodePoint.char '/' :: inside := by simpa using oneLine
    have slashes : Piece.of (.char '/') (.char '/' :: inside ++ t) =
        .lexeme .comment (lineTail (.char '/' :: inside ++ t)) := rfl
    rw [reach _ longer] at slashes
    exact passes_comment slashes

theorem passes_block {inside : Text} (noEnd : ¬commentEnd <:+: inside) (t : Text) :
    Passes (.char '/' :: .char '*' :: inside ++ commentEnd) t := by
  have opens : Piece.of (.char '/') (.char '*' :: (inside ++ commentEnd ++ t)) =
      .lexeme .comment (inside.length + 2 + 1) := by
    unfold Piece.of
    rw [if_neg (by decide), if_neg (by decide), if_pos rfl, List.head?_cons, if_neg (by decide),
      if_pos rfl, List.drop_one, List.tail_cons, commentTail_block noEnd t]
  exact passes_comment (by simpa [commentEnd] using opens)

/-- Nothing but comments is read in a gap. -/
theorem passes_gap {atEnd : Bool} {gap t : Text} (h : Gap atEnd gap)
    (last : atEnd = true → t = []) : Passes gap t := by
  induction h with
  | nil => exact fun k => ⟨[], by simp, rfl⟩
  | blank blank _ ih => exact passes_append (passes_blank blank _) (ih last)
  | line opens oneLine _ ih =>
      refine passes_append (passes_line opens oneLine (.inr rfl)) ?_
      exact passes_append (passes_blank (by decide) _) (ih last)
  | lastLine opens oneLine => exact passes_line opens oneLine (.inl (last rfl))
  | block noEnd _ ih => exact passes_append (passes_block noEnd _) (ih last)

end Lexeme

end ApprovedOps
