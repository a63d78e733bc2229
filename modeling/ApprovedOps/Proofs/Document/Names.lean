import ApprovedOps.Proofs.Document.Operation

/-! # What the parts of documents are named by

Operations that are accepted and fragments have names of the language.
-/

namespace ApprovedOps

theorem Fragment.nameOf_isName {value name : Text} (h : nameOf value = .ok name) :
    name.isName = true := by
  rw [nameOf] at h
  split at h
  next declared found =>
    split at h <;> cases h
    rw [declaredName?] at found
    split at found
    · cases found
    · split at found
      · cases found
      · split at found
        next begins =>
          cases found
          rw [Text.isName, (Bool.and_eq_true_iff.mp begins).2, Bool.true_and]
          exact List.all_takeWhile
        next => cases found
  next => cases h

namespace Parts

/-- Do all fragments have names? -/
def Named (p : Parts) : Prop :=
  ∀ f ∈ p.fragments, f.name.isName = true

/-- Do all fragments have the names that their texts declare? -/
def Declared (p : Parts) : Prop :=
  ∀ f ∈ p.fragments, Fragment.nameOf f.value = .ok f.name

theorem flush_declared {t : Text} {w : Walk} {stop : Nat} {p : Parts} (declared : w.parts.Declared)
    (h : w.flush t stop = .ok p) : p.Declared := by
  obtain ⟨parts, region, start, close, depth, afterBrace⟩ := w
  cases region with
  | comment =>
      cases h
      exact declared
  | vars =>
      cases close <;> cases h
      exact declared
  | query =>
      cases close with
      | none => cases h
      | some close =>
          simp only [Walk.flush] at h
          split at h <;> cases h
          exact declared
  | fragment =>
      cases close with
      | none => cases h
      | some close =>
          obtain ⟨name, found, made⟩ := except_bind_ok h
          cases made
          intro f among
          obtain old | new := List.mem_append.mp among
          · exact declared f old
          · rw [List.mem_singleton.mp new]
            exact found

theorem step_declared {t : Text} {w w' : Walk} {l : Lexeme} (declared : w.parts.Declared)
    (h : w.step t l = .ok w') : w'.parts.Declared := by
  rw [Walk.step] at h
  split at h
  · cases h
    exact declared
  · obtain ⟨w₁, entered, counted⟩ := except_bind_ok h
    cases counted
    rw [Walk.enter] at entered
    split at entered
    · cases entered
      exact declared
    · obtain ⟨parts, flushed, made⟩ := except_bind_ok entered
      cases made
      exact flush_declared declared flushed

theorem ofText_declared {t : Text} {p : Parts} (h : ofText t = .ok p) : p.Declared := by
  obtain ⟨w, run, last⟩ := except_bind_ok h
  have declared : w.parts.Declared := by
    suffices ∀ (ls : List Lexeme) (w₀ : Walk), w₀.parts.Declared → ls.foldlM (Walk.step t) w₀ = .ok w →
        w.parts.Declared from this _ {} nofun run
    intro ls
    induction ls with
    | nil =>
        intro w₀ declared run
        cases run
        exact declared
    | cons l ls ih =>
        intro w₀ declared run
        rw [List.foldlM_cons] at run
        obtain ⟨w₁, first, rest⟩ := except_bind_ok run
        exact ih w₁ (step_declared declared first) rest
  split at last
  next => cases last
  next => exact flush_declared declared last

/-- The fragments of a document have names. -/
theorem ofText_named {t : Text} {p : Parts} (h : ofText t = .ok p) : p.Named :=
  fun f among => Fragment.nameOf_isName (ofText_declared h f among)

end Parts

end ApprovedOps
