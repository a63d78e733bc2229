import Mathlib.Data.List.Nodup
import ApprovedOps.Files.Basic

/-! # The order of texts

Texts are in lexicographic order by the numbers of their code points, which is a strict total order.
Sorting puts texts that differ in this order.
-/

namespace ApprovedOps

theorem CodePoint.value_inj {p q : CodePoint} (h : p.value = q.value) : p = q := by
  cases p with
  | char c =>
      cases q with
      | char d => exact congrArg _ (Char.toNat_inj.mp h)
      | surrogate offset =>
          have valid : c.toNat < 0xD800 ∨ 0xDFFF < c.toNat ∧ c.toNat < 0x110000 := c.valid
          simp only [value] at h
          omega
  | surrogate offset =>
      cases q with
      | char d =>
          have valid : d.toNat < 0xD800 ∨ 0xDFFF < d.toNat ∧ d.toNat < 0x110000 := d.valid
          simp only [value] at h
          omega
      | surrogate offset' =>
          simp only [value] at h
          exact congrArg _ (Fin.ext (by omega))

namespace Text

theorem lt_cons {p q : CodePoint} {s t : Text} :
    lt (p :: s) (q :: t) = true ↔ p.value < q.value ∨ p = q ∧ lt s t = true := by
  simp only [lt, Bool.or_eq_true, Bool.and_eq_true, decide_eq_true_eq, beq_iff_eq]
  exact or_congr_right (and_congr_left' ⟨CodePoint.value_inj, congrArg _⟩)

theorem lt_irrefl (t : Text) : ¬lt t t = true := by
  induction t with
  | nil => exact nofun
  | cons p t ih => simp [lt_cons, ih]

theorem lt_trans {s t u : Text} (h : lt s t = true) (h' : lt t u = true) : lt s u = true := by
  induction s generalizing t u with
  | nil =>
      cases t with
      | nil => cases h
      | cons q t =>
          cases u with
          | nil => cases h'
          | cons r u => rfl
  | cons p s ih =>
      cases t with
      | nil => cases h
      | cons q t =>
          cases u with
          | nil => cases h'
          | cons r u =>
              rw [lt_cons] at *
              obtain h | ⟨rfl, h⟩ := h <;> obtain h' | ⟨rfl, h'⟩ := h'
              · exact .inl (Nat.lt_trans h h')
              · exact .inl h
              · exact .inl h'
              · exact .inr ⟨rfl, ih h h'⟩

theorem lt_total (s t : Text) : lt s t = true ∨ s = t ∨ lt t s = true := by
  induction s generalizing t with
  | nil =>
      cases t with
      | nil => exact .inr (.inl rfl)
      | cons q t => exact .inl rfl
  | cons p s ih =>
      cases t with
      | nil => exact .inr (.inr rfl)
      | cons q t =>
          rw [lt_cons, lt_cons]
          obtain less | same | more := Nat.lt_trichotomy p.value q.value
          · exact .inl (.inl less)
          · obtain rfl := CodePoint.value_inj same
            obtain h | rfl | h := ih t
            · exact .inl (.inr ⟨rfl, h⟩)
            · exact .inr (.inl rfl)
            · exact .inr (.inr (.inr ⟨rfl, h⟩))
          · exact .inr (.inr (.inl more))

/-- A common beginning has no part in the order. -/
theorem lt_append_left (front s t : Text) : lt (front ++ s) (front ++ t) = lt s t := by
  induction front with
  | nil => rfl
  | cons p front ih =>
      rw [Bool.eq_iff_iff, List.cons_append, List.cons_append, lt_cons, ih]
      simp

end Text

namespace Files

theorem mem_sorted {paths : List Text} {path : Text} : path ∈ sorted paths ↔ path ∈ paths :=
  List.mem_mergeSort

/-- Texts that differ come in strict order. -/
theorem sorted_pairwise {paths : List Text} (distinct : paths.Nodup) :
    (sorted paths).Pairwise fun a b => Text.lt a b = true := by
  have notAfter : (sorted paths).Pairwise fun a b => (!Text.lt b a) = true := by
    refine List.pairwise_mergeSort (fun a b c ab bc => ?_) (fun a b => ?_) paths
    · simp only [Bool.not_eq_true', ← Bool.not_eq_true] at ab bc ⊢
      intro ca
      obtain less | rfl | more := Text.lt_total b c
      · exact ab (Text.lt_trans less ca)
      · exact ab ca
      · exact bc more
    · simp only [Bool.or_eq_true, Bool.not_eq_true', ← Bool.not_eq_true]
      by_contra both
      simp only [not_or, not_not] at both
      exact Text.lt_irrefl a (Text.lt_trans both.2 both.1)
  have apart : (sorted paths).Nodup := (List.mergeSort_perm paths _).nodup_iff.mpr distinct
  refine (notAfter.and apart).imp fun {a b} h => ?_
  obtain less | same | more := Text.lt_total a b
  · exact less
  · exact absurd same h.2
  · simp [more] at h

end Files

end ApprovedOps
