import Mathlib.Data.List.Infix
import Mathlib.Data.List.TakeWhile
import ApprovedOps.Proofs.Except
import ApprovedOps.Toml.Reader

/-! # Strings that are read as they are written

A string between double quotes is read as it is written if nothing in it has to be escaped. Whatever
is read, an escape is written with more code points than it stands for, so what is read is never longer
than what is written, and of the same length only if it is the same.
-/

namespace ApprovedOps.Toml

/-- Can the code point stand in a string on one line without an escape? -/
def isOrdinary (p : CodePoint) : Bool :=
  !(p = .char '"' || p = .char '\\' || isControl p)

/-- The mark that ends a string. -/
def closingMark (multiline : Bool) : Text :=
  if multiline then [.char '"', .char '"', .char '"'] else [.char '"']

theorem basic_ordinary {t : Text} (ordinary : ∀ p ∈ t, isOrdinary p = true) {bound : Nat}
    (room : t.length < bound) (rest : Text) :
    basic false bound (t ++ .char '"' :: rest) = .ok (t, rest) := by
  obtain ⟨bound, rfl⟩ := Nat.exists_eq_succ_of_ne_zero (Nat.ne_of_gt (Nat.zero_lt_of_lt room))
  induction t generalizing bound with
  | nil => rfl
  | cons p t ih =>
      obtain ⟨here, later⟩ := List.forall_mem_cons.mp ordinary
      obtain ⟨bound, rfl⟩ := Nat.exists_eq_succ_of_ne_zero (n := bound) (by
        rw [List.length_cons] at room
        omega)
      simp only [isOrdinary, Bool.not_eq_true', Bool.or_eq_false_iff, decide_eq_false_iff_not] at here
      obtain ⟨⟨noQuote, noBackslash⟩, noControl⟩ := here
      rw [List.cons_append, basic, if_neg fun h => noQuote h.1, if_neg (by simp), if_neg noBackslash,
        if_neg (by simp [isIllegal, noControl]), ih later bound (by simpa using room)]
      rfl

theorem string_ordinary {t rest : Text} (ordinary : ∀ p ∈ t, isOrdinary p = true)
    (single : rest.head? ≠ some (.char '"')) :
    string '"' (.char '"' :: (t ++ .char '"' :: rest)) = .ok (.string t, rest) := by
  have oneLine : Text.startsWith (.char '"' :: (t ++ .char '"' :: rest))
      (List.replicate 3 (.char '"')) = false := by
    cases t with
    | nil =>
        cases rest with
        | nil => rfl
        | cons q rest =>
            have other : CodePoint.char '"' ≠ q := fun same => single (same ▸ rfl)
            simp [Text.startsWith, List.replicate, List.isPrefixOf, other]
    | cons p t =>
        have other : CodePoint.char '"' ≠ p := by
          rintro rfl
          exact absurd (ordinary _ List.mem_cons_self) (by decide)
        simp [Text.startsWith, List.replicate, List.isPrefixOf, other]
  have read : lineString '"' (t ++ .char '"' :: rest) = .ok (t, rest) :=
    basic_ordinary ordinary (by rw [List.length_append, List.length_cons]; omega) rest
  unfold string
  rw [oneLine, if_neg Bool.false_ne_true, List.drop_succ_cons, List.drop_zero, read]
  rfl

/-! ## Escapes -/

theorem mapM_some {α β : Type} {f : α → Option β} {l : List α} {bs : List β}
    (h : l.mapM f = some bs) {a : α} (among : a ∈ l) : f a ≠ none := by
  induction l generalizing bs with
  | nil => cases among
  | cons b l ih =>
      rw [List.mapM_cons] at h
      obtain ⟨first, found, more⟩ := Option.bind_eq_some_iff.mp h
      obtain ⟨others, later, -⟩ := Option.bind_eq_some_iff.mp more
      obtain rfl | behind := List.mem_cons.mp among
      · simp [found]
      · exact ih later behind

/-- An escape is at least one code point for at most one. -/
theorem hexEscape_ok {count : Nat} {s t rest : Text} (h : hexEscape count s = .ok (t, rest)) :
    ∃ digits, s = digits ++ rest ∧ t.length = 1 ∧ .char '\n' ∉ digits := by
  unfold hexEscape at h
  split at h
  · cases h
  next values hex =>
    split at h
    · split at h <;> cases h
      refine ⟨s.take count, (List.take_append_drop count s).symm, rfl, fun among => ?_⟩
      exact mapM_some hex among (by decide)
    · cases h

theorem lineEnd_ok {s t rest : Text} (h : lineEnd s = .ok (t, rest)) :
    t = [] ∧ ∃ written, s = written ++ rest := by
  have blanks := List.takeWhile_append_dropWhile (p := isBlank) (l := s)
  unfold lineEnd at h
  split at h
  next nothing =>
    cases h
    exact ⟨rfl, s, (List.append_nil s).symm⟩
  next p r behind =>
    split at h <;> cases h
    obtain ⟨breaks, more⟩ := List.dropWhile_suffix (l := r) isBlankOrBreak
    refine ⟨rfl, s.takeWhile isBlank ++ p :: breaks, ?_⟩
    rw [List.append_assoc, List.cons_append, more, ← behind, blanks]

theorem escape_ok {multiline : Bool} {s t rest : Text} (h : escape multiline s = .ok (t, rest)) :
    ∃ written, s = written ++ rest ∧ t.length ≤ written.length ∧
      (multiline = false → .char '\n' ∉ written) := by
  cases s with
  | nil => cases h
  | cons p r =>
      rw [escape] at h
      split at h
      next lines =>
        obtain ⟨rfl, written, text⟩ := lineEnd_ok h
        exact ⟨written, text, Nat.zero_le _, fun single => by simp [single] at lines⟩
      next =>
        split at h
        next letter =>
          obtain ⟨digits, rfl, size, noBreak⟩ := hexEscape_ok h
          exact ⟨p :: digits, rfl, by simp [size], by simp [letter, noBreak]⟩
        next =>
          split at h
          next letter =>
            obtain ⟨digits, rfl, size, noBreak⟩ := hexEscape_ok h
            exact ⟨p :: digits, rfl, by simp [size], by simp [letter, noBreak]⟩
          next =>
            split at h
            next letter =>
              cases h
              refine ⟨[p], rfl, Nat.le_refl 1, fun _ among => ?_⟩
              rw [← List.mem_singleton.mp among] at letter
              cases letter
            next => cases h

/-! ## Strings -/

/-- A string that is read is no longer than what is written, and as long only if it is the same. On
    one line nothing in it has to be escaped then. -/
theorem basic_ok {multiline : Bool} {bound : Nat} {s t rest : Text}
    (h : basic multiline bound s = .ok (t, rest)) :
    ∃ written, s = written ++ (closingMark multiline ++ rest) ∧
      t.length ≤ written.length ∧
      (t.length = written.length →
        t = written ∧ (multiline = false → ∀ p ∈ written, isOrdinary p = true)) ∧
      (multiline = false → .char '\n' ∉ written) := by
  induction bound generalizing s t with
  | zero => cases h
  | succ bound ih =>
      cases s with
      | nil => cases h
      | cons p r =>
          rw [basic] at h
          split at h
          next closes =>
            cases h
            obtain ⟨rfl, single⟩ := closes
            obtain rfl : multiline = false := by simpa using single
            exact ⟨[], rfl, Nat.le_refl 0, fun _ => ⟨rfl, nofun⟩, nofun⟩
          next open_ =>
            split at h
            next closes =>
              cases h
              obtain ⟨rfl, mark⟩ := closes
              obtain ⟨rest, same⟩ := List.isPrefixOf_iff_prefix.mp mark
              refine ⟨[], ?_, Nat.le_refl 0, fun _ => ⟨rfl, nofun⟩, nofun⟩
              rw [← same]
              rfl
            next =>
              split at h
              next backslash =>
                obtain ⟨⟨escaped, r₁⟩, first, later⟩ := except_bind_ok h
                obtain ⟨⟨more, r₂⟩, behind, made⟩ := except_bind_ok later
                cases made
                obtain ⟨front, rfl, short, noBreak⟩ := escape_ok first
                obtain ⟨written, rfl, short', -, noBreak'⟩ := ih behind
                have less : (escaped ++ more).length < (p :: (front ++ written)).length := by
                  simp only [List.length_append, List.length_cons]
                  omega
                refine ⟨p :: (front ++ written), by simp, Nat.le_of_lt less,
                  fun same => absurd same (Nat.ne_of_lt less), fun single => ?_⟩
                simp [backslash, noBreak single, noBreak' single]
              next noBackslash =>
                split at h
                next => cases h
                next legal =>
                  obtain ⟨⟨more, r₂⟩, behind, made⟩ := except_bind_ok h
                  cases made
                  obtain ⟨written, rfl, short, equal, noBreak⟩ := ih behind
                  refine ⟨p :: written, rfl, by simpa using short, fun size => ?_, fun single => ?_⟩
                  · obtain ⟨rfl, ordinary⟩ := equal (by simpa using size)
                    refine ⟨rfl, fun single => List.forall_mem_cons.mpr ⟨?_, ordinary single⟩⟩
                    subst single
                    simp_all [isOrdinary, isIllegal]
                  · subst single
                    intro among
                    obtain rfl | later := List.mem_cons.mp among
                    · exact legal rfl
                    · exact noBreak rfl later

/-- A string on several lines is shorter than what is written up to its last two quotes. -/
theorem multilineString_ok {s t rest : Text} (h : multilineString '"' s = .ok (t, rest)) :
    ∃ front, s = front ++ .char '"' :: .char '"' :: rest ∧ t.length < front.length := by
  obtain ⟨⟨t₀, r₀⟩, inner, made⟩ := except_bind_ok h
  obtain ⟨written, text, short, -⟩ := basic_ok inner
  obtain ⟨lead, whole⟩ : ∃ lead, s = lead ++ (written ++ (closingMark true ++ r₀)) := by
    rw [← text]
    split
    next => exact ⟨s.take 1, by rw [← List.drop_one, List.take_append_drop]⟩
    next => exact ⟨[], rfl⟩
  -- The quotes that come right before the closing mark are read behind it.
  obtain ⟨extra, taken, quotes⟩ : ∃ extra, extra = (r₀.take 2).takeWhile (· = .char '"') ∧
      ∀ p ∈ extra, p = .char '"' :=
    ⟨_, rfl, fun p among => by simpa using List.mem_takeWhile_imp among⟩
  have begins : r₀ = extra ++ r₀.drop extra.length := by
    have first : extra <+: r₀ := taken ▸ (List.takeWhile_prefix _).trans (List.take_prefix _ _)
    rw [← List.prefix_iff_eq_append.mp first]
    simp
  simp only [extraQuotes, ← taken, pure, Except.pure, Except.ok.injEq, Prod.mk.injEq] at made
  obtain ⟨rfl, rfl⟩ := made
  have same : closingMark true ++ extra = .char '"' :: extra ++ [.char '"', .char '"'] := by
    rw [List.eq_replicate_of_mem quotes, ← List.replicate_succ]
    change List.replicate 3 _ ++ _ = _ ++ List.replicate 2 _
    rw [List.replicate_append_replicate, List.replicate_append_replicate]
    congr 1
    omega
  refine ⟨lead ++ (written ++ .char '"' :: extra), ?_, ?_⟩
  · conv_lhs => rw [whole, begins, ← List.append_assoc (closingMark true), same]
    simp
  · simp only [List.length_append, List.length_cons]
    omega

/-- Behind an opening quote, a text is read as a string no longer than the text before the next quote
    at the end of a line, if no two quotes follow one another there. It is as long only if it is the
    text. -/
theorem string_ok {n tail rest : Text} {v : Value} (apart : ¬[.char '"', .char '"'] <:+: tail)
    (ends : ∃ more, tail = .char '"' :: .char '\n' :: more)
    (h : string '"' (.char '"' :: (n ++ tail)) = .ok (v, rest)) :
    ∃ t, v = .string t ∧ t.length ≤ n.length ∧
      (t.length = n.length → t = n ∧ ∀ p ∈ n, isOrdinary p = true) := by
  obtain ⟨t, rfl, inner⟩ : ∃ t, v = .string t ∧
      (if Text.startsWith (.char '"' :: (n ++ tail)) (List.replicate 3 (.char '"')) then
        multilineString '"' ((n ++ tail).drop 2) else lineString '"' (n ++ tail)) = .ok (t, rest) := by
    unfold string at h
    split at h
    all_goals
      obtain ⟨⟨t, r⟩, inner, made⟩ := except_bind_ok h
      cases made
      refine ⟨t, rfl, ?_⟩
    next several => exact (if_pos several).trans inner
    next single => exact (if_neg single).trans inner
  refine ⟨t, rfl, ?_⟩
  split at inner
  next several =>
    obtain ⟨front, text, short⟩ := multilineString_ok inner
    rw [List.drop_append] at text
    have later : tail.drop (2 - n.length) <:+ tail := List.drop_suffix _ _
    have inside : front.length < (n.drop 2).length := by
      obtain ⟨middle, -, behind⟩ | ⟨middle, name, behind⟩ := List.append_eq_append_iff.mp text
      · exact absurd (List.IsInfix.trans ⟨middle, rest, by simp [behind]⟩ later.isInfix) apart
      · cases middle with
        | nil => exact absurd (List.IsInfix.trans ⟨[], rest, by simpa using behind⟩ later.isInfix) apart
        | cons p middle =>
            rw [name, List.length_append, List.length_cons]
            omega
    rw [List.length_drop] at inside
    exact ⟨by omega, fun same => by omega⟩
  next single =>
    obtain ⟨written, text, short, equal, noBreak⟩ := basic_ok inner
    obtain ⟨more, rfl⟩ := ends
    -- The closing quote is at most the one that the tail begins with, since a line break follows.
    obtain ⟨middle, rfl⟩ : ∃ middle, n = written ++ middle := by
      obtain ⟨middle, whole, behind⟩ | ⟨middle, name, -⟩ := List.append_eq_append_iff.mp text
      · match middle, behind with
        | [], _ => exact ⟨[], by simpa using whole.symm⟩
        | [_], behind => cases behind
        | _ :: p :: middle, behind =>
            obtain ⟨-, rfl, -⟩ : _ ∧ .char '\n' = p ∧ _ := by simpa using behind
            exact absurd (by simp [whole]) (noBreak rfl)
      · exact ⟨middle, name⟩
    rw [List.length_append]
    refine ⟨by omega, fun size => ?_⟩
    obtain rfl : middle = [] := List.eq_nil_of_length_eq_zero (by omega)
    rw [List.append_nil]
    exact (equal (by simpa using size)).imp_right fun ordinary => ordinary rfl

end ApprovedOps.Toml
