import ApprovedOps.Proofs.Variables.Cleaned
import ApprovedOps.Proofs.Variables.Unambiguous

/-! # Exact values of variables

A text without decorations denotes the values that its tree means, whichever of its trees is taken.
What is written for a value is a text of the tree of the value. So cleaned variables denote what the
variables before denote, with the numbers that have a fraction or an exponent rounded to what their
nearest binary number is written as.
-/

namespace ApprovedOps

namespace Variables

open Json Json.Reader

/-! ## Written values -/

theorem gap_newline (indent level : Nat) : Gap Manner.plain (newline indent level) := by
  have spaces : ∀ n, Gap Manner.plain (List.replicate n (.char ' ')) := by
    intro n
    induction n with
    | zero => exact .nil
    | succ n ih => exact .blank rfl ih
  exact .blank rfl (spaces _)

theorem laid_at {n : Nat} {w : Text} {v : Json} (h : words[n]? = some (w, v)) :
    Laid Manner.plain (.word w v) w :=
  .word (List.mem_of_getElem? h)

section

variable {indent level outer : Nat}

theorem series_render {v : Json} {vs : List Json}
    (each : ∀ w ∈ v :: vs, Laid Manner.plain w.tree (w.renderAt indent level)) :
    Series Manner.plain (Laid Manner.plain) (trees (v :: vs))
      (newline indent level ++ (v.renderAt indent level ++
        (renderItems indent level vs ++ newline indent outer))) := by
  induction vs generalizing v with
  | nil => exact .last (gap_newline _ _) (each v List.mem_cons_self) (.gap (gap_newline _ _))
  | cons u vs ih =>
      have rest := ih fun w among => each w (List.mem_cons_of_mem _ among)
      rw [renderItems]
      simp only [List.append_assoc, List.cons_append, List.nil_append]
      exact .next (gap_newline _ _) (each v List.mem_cons_self) .nil rest

theorem named_render {key : Text} {v : Json}
    (value : Laid Manner.plain v.tree (v.renderAt indent level)) :
    Named Manner.plain (Laid Manner.plain) (key.flatMap escape, v.tree)
      (quote key ++ (Text.ofString ": " ++ v.renderAt indent level)) :=
  .mk (body_escape key) .nil (.blank rfl .nil) value

theorem series_fields {key : Text} {v : Json} {fields : List (Text × Json)}
    (each : ∀ f ∈ (key, v) :: fields, Laid Manner.plain f.2.tree (f.2.renderAt indent level)) :
    Series Manner.plain (Named Manner.plain (Laid Manner.plain)) (treesIn ((key, v) :: fields))
      (newline indent level ++ ((quote key ++ (Text.ofString ": " ++ v.renderAt indent level)) ++
        (renderFields indent level fields ++ newline indent outer))) := by
  induction fields generalizing key v with
  | nil =>
      exact .last (gap_newline _ _) (named_render (each _ List.mem_cons_self))
        (.gap (gap_newline _ _))
  | cons f fields ih =>
      obtain ⟨name, w⟩ := f
      have rest := ih fun f among => each f (List.mem_cons_of_mem _ among)
      simp only [List.append_assoc] at rest
      have named := @named_render indent level key v (each _ List.mem_cons_self)
      have series := Series.next (gap_newline indent level) named .nil rest
      rw [renderFields, treesIn]
      simpa only [List.append_assoc, List.cons_append, List.nil_append] using series

end

/-- What is written for a value is a text of the tree of the value. -/
theorem laid_render {v : Json} (readable : Readable v) (indent level : Nat) :
    Laid Manner.plain v.tree (v.renderAt indent level) := by
  induction readable generalizing level with
  | null =>
      rw [renderAt]
      exact .null
  | bool b =>
      cases b
      · rw [renderAt]
        exact laid_at (n := 2) rfl
      · rw [renderAt]
        exact laid_at (n := 1) rfl
  | integer short =>
      rw [renderAt]
      exact .number (amounts_isNumber (amounts_ofInt _))
  | @real x proper =>
      rw [renderAt]
      cases x with
      | finite negative m e => exact .number (amounts_isNumber (amounts_render negative proper))
      | infinite negative =>
          cases negative
          · exact laid_at (n := 4) rfl
          · exact laid_at (n := 5) rfl
      | nan => exact laid_at (n := 3) rfl
  | string t =>
      rw [renderAt]
      exact .string (body_escape t)
  | @array items all ih =>
      cases items with
      | nil =>
          rw [renderAt]
          exact .noItem .nil
      | cons v vs =>
          have series := @series_render indent (level + 1) level v vs fun w among =>
            ih w among (level + 1)
          rw [renderAt, tree]
          simpa only [List.append_assoc, List.cons_append, List.nil_append] using Laid.array series
  | @object fields distinct all ih =>
      cases fields with
      | nil =>
          rw [renderAt]
          exact .noMember .nil
      | cons f fields =>
          obtain ⟨key, v⟩ := f
          have series := @series_fields indent (level + 1) level key v fields fun f among =>
            ih f among (level + 1)
          rw [renderAt, tree]
          simpa only [List.append_assoc, List.cons_append, List.nil_append] using Laid.object series

theorem written_laid {m : Manner} {v : Tree} {s : Text} (laid : Laid m v s) : Written m v s := by
  have written := Written.mk .nil laid (.gap .nil)
  rwa [List.nil_append, List.append_nil] at written

theorem written_render {v : Json} (readable : Readable v) (indent : Nat) :
    Written Manner.plain v.tree (v.render indent) :=
  written_laid (laid_render readable indent 0)

/-! ## Denoted values -/

/-- Is the text JSON without decorations that denotes the value? -/
def Denotes (t : Text) (x : Exact) : Prop :=
  ∃ v, Written Manner.plain v t ∧ v.Means x

/-- A text denotes what any of its trees means. -/
theorem denotes_iff {v : Tree} {t : Text} {x : Exact} (h : Written Manner.plain v t) :
    Denotes t x ↔ v.Means x :=
  ⟨fun ⟨_, h', means⟩ => (written_alike h' h _ x).mp means, fun means => ⟨v, h, means⟩⟩

theorem exists_each {α β : Type} {R : α → β → Prop} {xs : List α} :
    (∃ ys, List.Forall₂ R xs ys) ↔ ∀ x ∈ xs, ∃ y, R x y := by
  induction xs with
  | nil => exact ⟨fun _ => nofun, fun _ => ⟨[], .nil⟩⟩
  | cons x xs ih =>
      rw [List.forall_mem_cons, ← ih]
      constructor
      · rintro ⟨_, _ | ⟨first, rest⟩⟩
        exact ⟨⟨_, first⟩, _, rest⟩
      · rintro ⟨⟨y, first⟩, ys, rest⟩
        exact ⟨y :: ys, .cons first rest⟩

/-- The words mean something that do not stand for a floating-point number. -/
theorem exists_word {w : Text} {v : Json} (among : (w, v) ∈ words) :
    (∃ x, (Tree.word w v).Means x) ↔ ∀ x, v ≠ .real x := by
  simp only [words, List.mem_cons, Prod.mk.injEq, List.not_mem_nil, or_false] at among
  obtain ⟨rfl, rfl⟩ | ⟨rfl, rfl⟩ | ⟨rfl, rfl⟩ | ⟨-, rfl⟩ | ⟨-, rfl⟩ | ⟨-, rfl⟩ := among
  · exact iff_of_true ⟨_, .word⟩ (by simp)
  · exact iff_of_true ⟨_, .true⟩ (by simp)
  · exact iff_of_true ⟨_, .false⟩ (by simp)
  all_goals
    refine iff_of_false ?_ fun none_ => none_ _ rfl
    rintro ⟨x, means⟩
    exact not_means_real means

/-- A tree means something exactly if none of its words stands for a floating-point number. -/
theorem exists_meaning (v : Tree) : ∀ s, Laid Manner.plain v s →
    ((∃ x, v.Means x) ↔ ∀ w x, Tree.word w (.real x) ∉ v.leaves) := by
  induction v using Tree.induct with
  | null =>
      intro s _
      exact iff_of_true ⟨_, .null⟩ (by simp [Tree.leaves])
  | word w v =>
      intro s h
      cases h with
      | word among =>
          rw [exists_word among]
          simp only [Tree.leaves, List.mem_singleton, Tree.word.injEq]
          grind
  | number w =>
      intro s h
      cases h with
      | number written =>
          obtain ⟨q, amounts⟩ := exists_amount written
          exact iff_of_true ⟨_, .number amounts⟩ (by simp [Tree.leaves])
  | string body =>
      intro s h
      cases h with
      | string body_ =>
          obtain ⟨t, spells⟩ := exists_spelling body_
          exact iff_of_true ⟨_, .string spells⟩ (by simp [Tree.leaves])
  | array items ih =>
      intro s h
      have each : ∀ v ∈ items, ((∃ x, v.Means x) ↔ ∀ w x, Tree.word w (.real x) ∉ v.leaves) := by
        intro v among
        cases h with
        | noItem => cases among
        | array series =>
            obtain ⟨s, laid⟩ := series_each series v among
            exact ih v among s laid
      have parts : (∃ x, Tree.Means (.array items) x) ↔ ∃ xs, List.Forall₂ Tree.Means items xs := by
        constructor
        · rintro ⟨x, means⟩
          cases means with
          | array means => exact ⟨_, means⟩
        · rintro ⟨xs, means⟩
          exact ⟨_, .array means⟩
      rw [parts, exists_each, forall₂_congr each]
      simp only [Tree.leaves, Tree.mem_leavesOf]
      grind
  | object members ih =>
      intro s h
      have each : ∀ m ∈ members, ((∃ f, Tree.Member Tree.Means m f) ↔
          ∀ w x, Tree.word w (.real x) ∉ m.2.leaves) := by
        intro m among
        cases h with
        | noMember => cases among
        | object series =>
            obtain ⟨s, named⟩ := series_each series m among
            cases named with
            | @mk _ v _ _ _ name _ _ laid =>
                obtain ⟨t, spells⟩ := exists_spelling name
                rw [← ih _ among _ laid]
                constructor
                · rintro ⟨f, member⟩
                  cases member with
                  | mk _ means => exact ⟨_, means⟩
                · rintro ⟨x, means⟩
                  exact ⟨(t, x), .mk spells means⟩
      have parts : (∃ x, Tree.Means (.object members) x) ↔
          ∃ fields, List.Forall₂ (Tree.Member Tree.Means) members fields := by
        constructor
        · rintro ⟨x, means⟩
          cases means with
          | object means => exact ⟨_, means⟩
        · rintro ⟨fields, means⟩
          exact ⟨_, .object means⟩
      rw [parts, exists_each, forall₂_congr each]
      simp only [Tree.leaves, Tree.mem_leavesIn]
      grind

/-- A text of a tree denotes something exactly if none of its words stands for a floating-point
number. -/
theorem exists_denoted {v : Tree} {t : Text} (h : Written Manner.plain v t) :
    (∃ x, Denotes t x) ↔ ∀ w x, Tree.word w (.real x) ∉ v.leaves := by
  simp only [denotes_iff h]
  obtain ⟨-, laid, -⟩ := h
  exact exists_meaning v _ laid

/-! ## Cleaned variables -/

theorem clean_written {t : Text} {v : Tree} {x : Json} (written : Written Manner.plain v (strip t))
    (value : v.value = .ok x) (indent : Nat) : clean indent t = .ok (x.render indent) := by
  rw [clean, Variables.read, read_written written, value]
  rfl

/-- Cleaned variables denote what the variables before denote, once every number with a fraction or
an exponent is replaced by the shortest decimal of the floating-point number nearest to it. They
denote the same exactly if this replaces every number by itself, as it does with a number of at most
fifteen digits that is neither huge nor tiny. -/
theorem clean_exact {indent : Nat} {t out : Text} {v : Tree} {x : Exact}
    (cleaned : clean indent t = .ok out) (written : Written Manner.plain v (strip t))
    (means : v.Means x) (distinct : x.Distinct) :
    (∀ y, Denotes out y ↔ v.MeansBy Rounded y) ∧
      (Denotes out x ↔ ∀ w, Tree.number w ∈ v.leaves → Kept w) ∧
      ((∀ w, Tree.number w ∈ v.leaves → IsReal w → Short w) → Denotes out x) := by
  obtain ⟨w, read, readable, rfl⟩ := clean_ok cleaned
  have value : v.value = .ok w := (read_written written).symm.trans read
  have rounded (y : Exact) : Denotes (w.render indent) y ↔ v.MeansBy Rounded y :=
    (denotes_iff (written_render readable indent)).trans
      (Tree.means_rounded v x w means distinct value y)
  have kept := (rounded x).trans (Tree.meansBy_rounded v x means)
  refine ⟨rounded, kept, fun short => kept.mpr fun w among real => ?_⟩
  exact kept_of_short (short w among real) real

theorem whole_one : Whole ['1'] :=
  ⟨List.all_eq_true.mp rfl, List.cons_ne_nil _ _, .inr (by decide)⟩

/-- A name that is spelled with an escape, and a zero at the end of a fraction. -/
theorem clean_exact_of_escape :
    Denotes "\x7b\"\\u0061\":1.50\x7d" (.object [("a", .number (3 / 2))]) ∧
      clean 2 "\x7b\"\\u0061\":1.50\x7d" = .ok "\x7b\n  \"a\": 1.5\n\x7d" ∧
      Denotes "\x7b\n  \"a\": 1.5\n\x7d" (.object [("a", .number (3 / 2))]) := by
  have unit : CodeUnit "0061" 0x61 := .mk (i := 0) (j := 0) (k := 6) (l := 1) rfl rfl rfl rfl
  have notLeading : ¬IsLeading 0x61 := by simp [IsLeading]
  have spells : Spells "\\u0061" "a" :=
    .unit unit rfl (fun leading => absurd leading notLeading) .nil
  have amounts : Amounts "1.50" (3 / 2) := by
    have amounts := @amounts_decimal _ ['5', '0'] 150 whole_one (List.cons_ne_nil _ _)
      (List.all_eq_true.mp rfl) rfl
    norm_num at amounts
    exact amounts
  have short : Short "1.50" := by
    have small : (10 : ℚ) ^ (-307 : Int) ≤ 1 := zpow_le_one_of_nonpos₀ (by norm_num) (by norm_num)
    have large : (10 : ℚ) ^ (1 : Int) ≤ 10 ^ (307 : Int) :=
      zpow_le_zpow_right₀ (by norm_num) (by norm_num)
    rw [zpow_one] at large
    refine ⟨3 / 2, 15, -1, amounts, by norm_num, by norm_num, .inr ?_⟩
    rw [abs_of_pos (by norm_num)]
    exact ⟨small.trans (by norm_num), le_trans (by norm_num) large⟩
  let tree : Tree := .object [("\\u0061", .number "1.50")]
  have stripped : strip "\x7b\"\\u0061\":1.50\x7d" = "\x7b\"\\u0061\":1.50\x7d" := by cbv
  have laid : Laid Manner.plain tree _ :=
    .object (.last .nil (.mk (spells_body spells) .nil .nil (.number (amounts_isNumber amounts)))
      (.gap .nil))
  have written : Written Manner.plain tree "\x7b\"\\u0061\":1.50\x7d" := written_laid laid
  have value : tree.value = .ok (.object [("a", .real (.ofDecimal false 150 (-2)))]) := by
    simp only [tree, Tree.value, Tree.fields, spells_text spells]
    rfl
  have rendered : (Json.object [("a", .real (.ofDecimal false 150 (-2)))]).render 2 =
      "\x7b\n  \"a\": 1.5\n\x7d" := by decide +kernel
  have cleaned : clean 2 "\x7b\"\\u0061\":1.50\x7d" = .ok "\x7b\n  \"a\": 1.5\n\x7d" := by
    rw [clean_written (stripped.symm ▸ written) value, rendered]
  have means : tree.Means (.object [("a", .number (3 / 2))]) :=
    .object (.cons (.mk spells (.number amounts)) .nil)
  have distinct : Exact.Distinct (.object [("a", .number (3 / 2))]) :=
    .object (List.nodup_singleton _) (List.forall_mem_singleton.mpr (.number _))
  obtain ⟨-, -, kept⟩ := clean_exact cleaned (stripped.symm ▸ written) means distinct
  refine ⟨⟨tree, written, means⟩, cleaned, kept fun w among _ => ?_⟩
  obtain rfl : w = "1.50" := by simpa [tree, Tree.leaves, Tree.leavesIn] using among
  exact short

/-- A fraction of nineteen digits is written with seventeen, and a number that is too large is
written as a word that is no JSON. -/
theorem digits_lost :
    (∃ x, Denotes (strip "0.1234567890123456789") x ∧ x.Distinct ∧
      clean 2 "0.1234567890123456789" = .ok "0.12345678901234568" ∧
      ¬Denotes "0.12345678901234568" x) ∧
    (∃ x, Denotes (strip "1e400") x) ∧ clean 2 "1e400" = .ok "Infinity" ∧
      ¬∃ x, Denotes "Infinity" x := by
  have number_ {w : Text} {q : ℚ} (amounts : Amounts w q) : Written Manner.plain (.number w) w :=
    written_laid (.number (amounts_isNumber amounts))
  have value {w : Text} {q : ℚ} {v : Json} (amounts : Amounts w q) (stripped : strip w = w)
      (value_ : (Tree.number w).value = .ok v) : clean 2 w = .ok (v.render 2) :=
    clean_written (stripped.symm ▸ number_ amounts) value_ 2
  constructor
  · have stripped : strip "0.1234567890123456789" = "0.1234567890123456789" := by cbv
    have amounts : Amounts "0.1234567890123456789" (1234567890123456789 / 10 ^ 19) :=
      @amounts_decimal ['0'] "1234567890123456789".toList _ whole_zero (by decide)
        (List.all_eq_true.mp rfl) (by decide)
    have amounts' : Amounts "0.12345678901234568" (12345678901234568 / 10 ^ 17) :=
      @amounts_decimal ['0'] "12345678901234568".toList _ whole_zero (by decide)
        (List.all_eq_true.mp rfl) (by decide)
    have rendered : (Json.real (.ofDecimal false 1234567890123456789 (-19))).render 2 =
        "0.12345678901234568" := by decide +kernel
    rw [stripped]
    refine ⟨_, ⟨_, number_ amounts, .number amounts⟩, .number _,
      (value amounts stripped rfl).trans (congrArg _ rendered), ?_⟩
    rw [denotes_iff (number_ amounts')]
    rintro ⟨⟩
    rename_i lost
    have same := amounts_unique lost amounts'
    norm_num at same
  · have stripped : strip "1e400" = "1e400" := by cbv
    have power : Power "e400" 400 :=
      @Power.present 'e' [] ['4', '0', '0'] (.inl rfl) (by simp) (List.cons_ne_nil _ _)
        (List.all_eq_true.mp rfl)
    have amounts : Amounts "1e400" _ :=
      @Amounts.mk false ['1'] none "e400" 400 whole_one (by rintro f ⟨⟩) power
    have rendered : (Json.real (.ofDecimal false 1 400)).render 2 = "Infinity" := by decide +kernel
    rw [stripped]
    refine ⟨⟨_, _, number_ amounts, .number amounts⟩,
      (value amounts stripped rfl).trans (congrArg _ rendered), ?_⟩
    rw [exists_denoted (written_laid (laid_at (n := 4) rfl))]
    exact fun none_ => none_ _ _ List.mem_cons_self

end Variables

end ApprovedOps
