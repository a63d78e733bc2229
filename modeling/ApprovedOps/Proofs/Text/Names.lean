import ApprovedOps.Text.CodePoint

/-! # Names

A name of the language of operations has neither dots nor slashes nor colons in it.
-/

namespace ApprovedOps

/-- Is the text a name: a letter or an underscore, and then more of them or digits? -/
def Text.isName : Text → Bool
  | [] => false
  | c :: r => c.isNameStart && r.all CodePoint.isNameContinue

/-- A name holds nothing that cannot continue one. -/
theorem Text.isName_notMem {n : Text} (name : n.isName = true) {c : CodePoint}
    (other : c.isNameContinue = false) : c ∉ n := by
  have start (d : CodePoint) (h : d.isNameStart = true) : d.isNameContinue = true := by
    cases d with
    | char c =>
        simp only [CodePoint.isNameStart, CodePoint.isNameContinue, Char.isAlphanum,
          Bool.or_eq_true] at h ⊢
        exact h.imp_left .inl
    | surrogate => cases h
  cases n with
  | nil => cases name
  | cons d r =>
      simp only [isName, Bool.and_eq_true, List.all_eq_true] at name
      intro among
      obtain rfl | later := List.mem_cons.mp among
      · simp [start _ name.1] at other
      · simp [name.2 _ later] at other

theorem Text.isName_ne_nil {n : Text} (name : n.isName = true) : n ≠ [] := by
  rintro rfl
  cases name

end ApprovedOps
