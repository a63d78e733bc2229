import ApprovedOps.Proofs.Except
import ApprovedOps.Toml.Reader

/-! # What tables keep

A TOML text never changes a value that it has given a name: a table can be extended, and an array of
tables can grow, but all else stays as it is until the end of the text.
-/

namespace ApprovedOps

namespace Value

theorem sameKey_string {k : Value} {t : Text} : k.sameKey (.string t) = true ↔ k = .string t := by
  unfold sameKey
  cases k <;> simp [number?]

end Value

namespace Toml

/-! ## Tables -/

namespace Entries

@[simp] theorem get?_put (name k : Text) (v : Value) (es : Entries) :
    get? k (es.put name v) = if name = k then some v else get? k es := by
  induction es with
  | nil => simp [put, Value.insertEntry, get?, Value.sameKey_string]
  | cons e es ih =>
      obtain ⟨k', w⟩ := e
      rw [put, Value.insertEntry]
      split
      next same =>
        obtain rfl := Value.sameKey_string.mp same
        simp only [get?, Value.sameKey_string, Value.string.injEq]
        split <;> rfl
      next other =>
        have other' : k' ≠ .string name := fun same => other (Value.sameKey_string.mpr same)
        rw [put] at ih
        simp only [get?, ih, Value.sameKey_string]
        grind

/-- Is a value at a key with dots? -/
inductive At (v : Value) : Key → Entries → Prop where
  /-- The table has it. -/
  | here {name es} : get? name es = some v → At v [name] es
  /-- A table in the table has it. -/
  | inside {name key es t} : get? name es = some (.mapping t) → At v key t → At v (name :: key) es

/-- Does a change of a table keep all values in it but arrays? -/
def Keeps (change : Entries → Option Entries) : Prop :=
  ∀ es es' name v, (∀ items, v ≠ .list items) → get? name es = some v → change es = some es' →
    get? name es' = some v

theorem keeps_some : Keeps some := by
  intro es es' name v _ found made
  cases made
  exact found

theorem keeps_addNew (name : Text) (v : Value) : Keeps (addNew name v) := by
  intro es es' k w _ found made
  unfold addNew at made
  split at made <;> cases made
  next new =>
    rw [get?_put, if_neg, found]
    rintro rfl
    simp [found] at new

theorem keeps_append (name : Text) : Keeps (append name) := by
  intro es es' k v other found made
  unfold append at made
  split at made <;> cases made
  next new =>
    rw [get?_put, if_neg, found]
    rintro rfl
    simp [found] at new
  next items old =>
    rw [get?_put, if_neg, found]
    rintro rfl
    rw [old] at found
    exact other items (Option.some.inj found).symm

/-- An update puts a value at the first name of its key. What is there already is an array, or a table
    in which the rest of the key is updated. -/
theorem updateAt_cons {change : Entries → Option Entries} {throughArrays : Bool} {name : Text}
    {key : Key} {es es' : Entries} (h : updateAt throughArrays change (name :: key) es = some es') :
    ∃ w, es' = es.put name w ∧ (get? name es = none ∨ (∃ items, get? name es = some (.list items)) ∨
      ∃ t t', get? name es = some (.mapping t) ∧ w = .mapping t' ∧
        updateAt throughArrays change key t = some t') := by
  rw [updateAt] at h
  split at h
  next new =>
    obtain ⟨t, -, rfl⟩ := Option.map_eq_some_iff.mp h
    exact ⟨_, rfl, .inl new⟩
  next t old =>
    obtain ⟨t', made, rfl⟩ := Option.map_eq_some_iff.mp h
    exact ⟨_, rfl, .inr (.inr ⟨t, t', old, rfl, made⟩)⟩
  next items old =>
    split at h
    next =>
      obtain ⟨t, -, rfl⟩ := Option.map_eq_some_iff.mp h
      exact ⟨_, rfl, .inr (.inl ⟨items, old⟩)⟩
    next => cases h
  next => cases h

/-- A value without parts stays where it is. -/
theorem at_updateAt {change : Entries → Option Entries} (keeps : Keeps change)
    {throughArrays : Bool} {key path : Key} {es es' : Entries} {v : Value}
    (leaf : Builder.hasParts v = false) (found : At v path es)
    (h : updateAt throughArrays change key es = some es') : At v path es' := by
  induction key generalizing es es' path with
  | nil =>
      cases found with
      | here found => exact .here (keeps _ _ _ _ (by rintro items rfl; cases leaf) found h)
      | inside found rest => exact .inside (keeps _ _ _ _ nofun found h) rest
  | cons name key ih =>
      obtain ⟨w, rfl, before⟩ := updateAt_cons h
      cases found with
      | @here k _ found =>
          have other : name ≠ k := by
            rintro rfl
            obtain new | ⟨items, old⟩ | ⟨t, -, old, -⟩ := before
            · simp [found] at new
            · obtain rfl := Option.some.inj (found.symm.trans old)
              cases leaf
            · obtain rfl := Option.some.inj (found.symm.trans old)
              cases leaf
          exact .here (by rw [get?_put, if_neg other, found])
      | @inside k _ _ t found rest =>
          by_cases same : name = k
          · subst same
            obtain new | ⟨items, old⟩ | ⟨t, t', old, rfl, made⟩ := before
            · simp [found] at new
            · simp [found] at old
            · obtain ⟨⟩ := found.symm.trans old
              exact .inside (by rw [get?_put, if_pos rfl]) (ih rest made)
          · exact .inside (by rw [get?_put, if_neg same, found]) rest

end Entries

/-! ## Statements -/

namespace Builder

variable {b b' : Builder} {key path : Key} {v : Value}

theorem openTable_keeps (leaf : hasParts v = false) (found : b.table.At v path)
    (h : b.openTable key = .ok b') : b'.table.At v path := by
  unfold openTable at h
  split at h
  · cases h
  · split at h <;> cases h
    next made => exact Entries.at_updateAt Entries.keeps_some leaf found made

theorem openNext_keeps (leaf : hasParts v = false) (found : b.table.At v path)
    (h : b.openNext key = .ok b') : b'.table.At v path := by
  unfold openNext at h
  split at h
  · cases h
  · split at h <;> cases h
    next made => exact Entries.at_updateAt (Entries.keeps_append _) leaf found made

theorem add_keeps {w : Value} (leaf : hasParts v = false) (found : b.table.At v path)
    (h : b.add key w = .ok b') : b'.table.At v path := by
  dsimp only [add] at h
  split at h
  · cases h
  · split at h
    · cases h
    · split at h
      · cases h
      next made =>
        have kept := Entries.at_updateAt (Entries.keeps_addNew _ _) leaf found made
        obtain rfl := Except.ok.inj h
        split <;> exact kept

end Builder

theorem built_ok {b : Builder} {x : Except Cause Builder} {rest : Text}
    (h : built x rest = .ok b) : x = .ok b := by
  unfold built at h
  split at h <;> cases h
  rfl

theorem header_keeps {b b' : Builder} {s rest : Text} {path : Key} {v : Value}
    (leaf : Builder.hasParts v = false) (found : b.table.At v path)
    (h : header b s = .ok (b', rest)) : b'.table.At v path := by
  unfold header at h
  split at h
  · obtain ⟨⟨k, s₁⟩, -, opened⟩ := except_bind_ok h
    obtain ⟨b₁, made, closed⟩ := except_bind_ok opened
    split at closed <;> cases closed
    exact Builder.openTable_keeps (b := b.settle) leaf found (built_ok made)
  · obtain ⟨⟨k, s₁⟩, -, opened⟩ := except_bind_ok h
    obtain ⟨b₁, made, closed⟩ := except_bind_ok opened
    split at closed <;> cases closed
    exact Builder.openNext_keeps (b := b.settle) leaf found (built_ok made)

theorem statement_keeps {b b' : Builder} {p : CodePoint} {s rest : Text} {path : Key} {v : Value}
    (leaf : Builder.hasParts v = false) (found : b.table.At v path)
    (h : statement b p s = .ok (b', rest)) : b'.table.At v path := by
  unfold statement at h
  split at h
  · obtain ⟨⟨k, w, s₁⟩, -, added⟩ := except_bind_ok h
    obtain ⟨b₁, made, done⟩ := except_bind_ok added
    cases done
    exact Builder.add_keeps leaf found (built_ok made)
  · split at h
    · exact header_keeps leaf found h
    · split at h <;> cases h
      exact found

/-- The statements of a text leave every value without parts where it is. -/
theorem statements_keeps {bound : Nat} {b b' : Builder} {s : Text} {path : Key} {v : Value}
    (leaf : Builder.hasParts v = false) (found : b.table.At v path)
    (h : statements bound b s = .ok b') : b'.table.At v path := by
  induction bound generalizing b s with
  | zero =>
      cases h
      exact found
  | succ bound ih =>
      rw [statements] at h
      split at h
      · cases h
        exact found
      · split at h
        · exact ih found h
        · obtain ⟨⟨b₁, s₁⟩, first, later⟩ := except_bind_ok h
          have kept := statement_keeps leaf found first
          obtain ⟨s₂, -, more⟩ := except_bind_ok later
          split at more
          · cases more
            exact kept
          · split at more
            · exact ih kept more
            · cases more

/-- The statements behind one that is read. -/
def afterStatement (bound : Nat) (b : Builder) (s : Text) : Except Failure Builder := do
  let s ← skipComment (s.dropWhile isBlank)
  match s with
  | [] => return b
  | q :: rest => if q = .char '\n' then statements bound b rest else fail .expectedLineEnd s

theorem afterStatement_keeps {bound : Nat} {b b' : Builder} {s : Text} {path : Key} {v : Value}
    (leaf : Builder.hasParts v = false) (found : b.table.At v path)
    (h : afterStatement bound b s = .ok b') : b'.table.At v path := by
  obtain ⟨s₁, -, more⟩ := except_bind_ok h
  split at more
  · cases more
    exact found
  · split at more
    · exact statements_keeps leaf found more
    · cases more

end Toml

end ApprovedOps
