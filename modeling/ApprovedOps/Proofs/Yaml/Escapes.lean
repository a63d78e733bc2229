import Mathlib.Data.Nat.Digits.Defs
import ApprovedOps.Proofs.Yaml.Quoted

/-! # Escapes between double quotes

What does not stand for itself between double quotes is written as a backslash with a letter, or
with the number of the code point in two, four or eight hexadecimal digits, and is read as that code
point.
-/

namespace ApprovedOps.Yaml

open Cursor

variable {start : Nat} {c : Cursor} {p : CodePoint} {r : Text}

namespace Scalar

/-! ## Hexadecimal numbers -/

/-- The number that hexadecimal digits stand for after those of another number. -/
def hexValue (n : Nat) (ds : List Nat) : Nat :=
  ds.foldl (fun n d => n * 16 + d) n

theorem digit_read : ∀ d < 16, CodePoint.hexValue? (.char (Nat.digitChar d).toUpper) = some d := by
  decide

theorem digits_read (n : Nat) : ∃ ds,
    ((Nat.toDigits 16 n).map fun d => CodePoint.char d.toUpper).mapM CodePoint.hexValue? = some ds ∧
      hexValue 0 ds = n := by
  induction n using Nat.strong_induction_on with
  | _ n ih =>
      by_cases small : n < 16
      · refine ⟨[n], ?_, by simp [hexValue]⟩
        simp [Nat.toDigits_of_lt_base small, digit_read n small]
      · have below : n / 16 < n := Nat.div_lt_self (by omega) (by omega)
        obtain ⟨ds, read, value⟩ := ih (n / 16) below
        refine ⟨ds ++ [n % 16], ?_, ?_⟩
        · rw [Nat.toDigits_of_base_le (by omega) (by omega), List.map_append, List.mapM_append, read]
          simp [digit_read _ (Nat.mod_lt n (by omega))]
        · have front : ds.foldl (fun n d => n * 16 + d) 0 = n / 16 := value
          rw [hexValue, List.foldl_append, front, List.foldl_cons, List.foldl_nil]
          omega

theorem zeros_read (k : Nat) :
    ((List.replicate k '0').map CodePoint.char).mapM CodePoint.hexValue? =
      some (List.replicate k 0) := by
  have zero : CodePoint.hexValue? (.char '0') = some 0 := rfl
  induction k with
  | zero => rfl
  | succ k ih =>
      rw [List.replicate_succ, List.map_cons, List.mapM_cons, ih, zero]
      rfl

theorem hexValue_zeros (k : Nat) (ds : List Nat) :
    hexValue 0 (List.replicate k 0 ++ ds) = hexValue 0 ds := by
  induction k with
  | zero => rfl
  | succ k ih => exact ih

/-- A number that fits into some digits is read again. -/
theorem hexNumber?_hexUpper {width n : Nat} (some_ : 0 < width) (fits : n < 16 ^ width) (r : Text) :
    hexNumber? width (Text.hexUpper width n ++ r) = some n ∧
      (Text.hexUpper width n).length = width := by
  have short : (Nat.toDigits 16 n).length ≤ width :=
    (Nat.length_toDigits_le_iff (by omega) some_).mpr fits
  have long : (Text.hexUpper width n).length = width := by
    simp only [Text.hexUpper, List.length_map, List.length_append, List.length_replicate]
    omega
  obtain ⟨ds, read, value⟩ := digits_read n
  refine ⟨?_, long⟩
  have digits : (Text.hexUpper width n ++ r).take width = Text.hexUpper width n := by
    rw [List.take_append_of_le_length (by omega), List.take_of_length_le (by omega)]
  have all : (Text.hexUpper width n).mapM CodePoint.hexValue? =
      some (List.replicate (width - (Nat.toDigits 16 n).length) 0 ++ ds) := by
    rw [Text.hexUpper, List.map_append, List.mapM_append, zeros_read, List.map_map,
      List.length_map, Function.comp_def, read]
    rfl
  rw [hexNumber?, digits, if_pos long, all, Option.map_some, ← hexValue, hexValue_zeros, value]

theorem codePoint_value (p : CodePoint) : codePoint p.value = .ok p := by
  have known : CodePoint.ofNat? p.value = some p := by
    cases p with
    | surrogate offset =>
        have invalid : ¬(0xD800 + offset.val).isValidChar := by
          simp only [Nat.isValidChar]
          omega
        have surrogate_ : 0xD800 ≤ 0xD800 + offset.val ∧ 0xD800 + offset.val < 0xE000 := by
          omega
        simp [CodePoint.value, CodePoint.ofNat?, invalid, surrogate_]
    | char c =>
        have valid : c.toNat.isValidChar := c.valid
        have same := Char.ofNat_toNat c
        rw [Char.ofNat, dif_pos valid] at same
        rw [CodePoint.value, CodePoint.ofNat?, dif_pos valid]
        exact congrArg (some ∘ CodePoint.char) same
  rw [codePoint, known]

/-! ## Escapes -/

/-- The letter of an escape is read as what it stands for. -/
theorem escapeLetter?_read {x : Char} (h : Layout.escapeLetter? p = some x) :
    escapeLetter? (.char x) = some p := by
  rw [Layout.escapeLetter?] at h
  split at h <;> cases h
  all_goals
    next value =>
      exact congrArg some (CodePoint.value_inj value.symm)

theorem value_lt (p : CodePoint) : p.value < 0x110000 := by
  cases p with
  | surrogate offset =>
      rw [CodePoint.value]
      omega
  | char x =>
      have valid : x.toNat.isValidChar := x.valid
      simp only [Nat.isValidChar] at valid
      rw [CodePoint.value]
      omega

namespace Tail

variable {t : Text} {stop : Cursor}

/-- An escape by a letter. -/
theorem letter {x : Char} (here : c.rest = .char '\\' :: .char x :: r)
    (read : escapeLetter? (.char x) = some p)
    (h : Tail true start (c.past [.char '\\', .char x]) t stop) :
    Tail true start c (p :: t) stop := by
  have next : c.step.rest = .char x :: r := step_rest here
  refine escaped (s := [p]) here ?_ (past_shorter (t := [_, _]) here (List.cons_ne_nil _ _)) h
  rw [escape, peek_eq next, Option.getD_some, read]
  simp only [next, reduceCtorEq, if_false]
  rfl

/-- An escape by a number. -/
theorem numeric {x : Char} {width : Nat} (other : escapeLetter? (.char x) = none)
    (digits : escapeDigits? (.char x) = some width) (some_ : 0 < width)
    (fits : p.value < 16 ^ width)
    (here : c.rest = .char '\\' :: .char x :: Text.hexUpper width p.value ++ r)
    (h : Tail true start (c.past (.char '\\' :: .char x :: Text.hexUpper width p.value)) t stop) :
    Tail true start c (p :: t) stop := by
  obtain ⟨read, long⟩ := hexNumber?_hexUpper some_ fits r
  have next : c.step.rest = .char x :: (Text.hexUpper width p.value ++ r) := step_rest here
  refine escaped (s := [p]) here ?_ (past_shorter here (List.cons_ne_nil _ _)) h
  rw [escape, peek_eq next, Option.getD_some, other]
  simp only [digits, step_rest next, read, codePoint_value, past_cons]
  rw [past, long]
  rfl

/-- What does not stand for itself is read from its escape. -/
theorem escape (strange : Layout.isBare p = false) (here : c.rest = Layout.escape p ++ r)
    (h : Tail true start (c.past (Layout.escape p)) t stop) : Tail true start c (p :: t) stop := by
  have bound := value_lt p
  rw [Layout.escape, strange, if_neg Bool.false_ne_true] at here h
  cases known : Layout.escapeLetter? p with
  | some x =>
      rw [known] at here h
      exact letter here (escapeLetter?_read known) h
  | none =>
      rw [known] at here h
      simp only at here h
      split at here
      · rw [if_pos ‹_›] at h
        exact numeric (by decide) (by decide) (by decide) (by omega) here h
      · rw [if_neg ‹_›] at h
        split at here
        · rw [if_pos ‹_›] at h
          exact numeric (by decide) (by decide) (by decide) (by omega) here h
        · rw [if_neg ‹_›] at h
          exact numeric (by decide) (by decide) (by decide) (by omega) here h

/-- A line break behind a backslash says nothing, nor does the indentation after it. -/
theorem folded {q : CodePoint} {indent : Nat} (deep : 0 < indent)
    (here : c.rest = .char '\\' :: .char '\n' :: spaces indent ++ q :: r)
    (shown : isBlank q = false)
    (h : Tail true start (c.past (.char '\\' :: .char '\n' :: spaces indent)) t stop) :
    Tail true start c t stop := by
  have next : c.step.rest = .char '\n' :: (spaces indent ++ q :: r) := step_rest here
  have breaks : quotedBreaks start (c.step.rest.length + 1) (c.step.past [.char '\n']) =
      .ok ([].map softened, (c.step.past [.char '\n']).past ([] ++ spaces indent)) :=
    quotedBreaks_eq deep (past_rest (t := [_]) next) shown (by simp) (by simp)
  refine escaped (s := []) here ?_ (past_shorter here (List.cons_ne_nil _ _)) h
  rw [Scalar.escape, peek_eq next, Option.getD_some]
  have letter : escapeLetter? (.char '\n') = none := by decide
  have digits : escapeDigits? (.char '\n') = none := by decide
  have break_ : isBreak (.char '\n') = true := by decide
  simp only [letter, digits, break_, if_true, lineBreak_eq next break_ (by decide), breaks]
  rfl

end Tail

end Scalar

end ApprovedOps.Yaml
