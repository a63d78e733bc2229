import ApprovedOps.Dictionary

/-! # What dictionaries hold

The keys of a dictionary differ, a new one comes last, and the value that was inserted last for a
key is the one that is found.
-/

namespace ApprovedOps.Dictionary

variable {α : Type}

theorem keys_insert (key : Text) (v : α) (d : Dictionary α) :
    (d.insert key v).map Prod.fst =
      if key ∈ d.map Prod.fst then d.map Prod.fst else d.map Prod.fst ++ [key] := by
  induction d with
  | nil => rfl
  | cons f d ih =>
      rw [insert]
      split
      next same => simp [same]
      next other =>
        have other' : ¬key = f.1 := fun same => other same.symm
        simp only [List.map_cons, ih, List.mem_cons, other', false_or]
        split <;> rfl

theorem nodup_insert {d : Dictionary α} (distinct : (d.map Prod.fst).Nodup) (key : Text) (v : α) :
    ((d.insert key v).map Prod.fst).Nodup := by
  rw [keys_insert]
  split
  · exact distinct
  next new =>
    refine List.nodup_append.mpr
      ⟨distinct, List.pairwise_singleton _ _, fun k old k' last same => ?_⟩
    rw [same, List.mem_singleton.mp last] at old
    exact new old

theorem insert_new {key : Text} {v : α} {d : Dictionary α} (new : key ∉ d.map Prod.fst) :
    d.insert key v = d ++ [(key, v)] := by
  induction d with
  | nil => rfl
  | cons f d ih =>
      rw [List.map_cons, List.mem_cons, not_or] at new
      rw [insert, if_neg fun same => new.1 same.symm, ih new.2]
      rfl

theorem mem_insert {key : Text} {v : α} {d : Dictionary α} {f : Text × α}
    (among : f ∈ d.insert key v) : f = (key, v) ∨ f ∈ d := by
  induction d with
  | nil => exact .inl (List.mem_singleton.mp among)
  | cons g d ih =>
      rw [insert] at among
      split at among
      · obtain rfl | later := List.mem_cons.mp among
        · exact .inl rfl
        · exact .inr (List.mem_cons_of_mem _ later)
      · obtain rfl | later := List.mem_cons.mp among
        · exact .inr List.mem_cons_self
        · exact (ih later).imp_right (List.mem_cons_of_mem _)

theorem get?_insert (key k : Text) (v : α) (d : Dictionary α) :
    get? k (d.insert key v) = if key = k then some v else get? k d := by
  induction d with
  | nil => rfl
  | cons f d ih =>
      obtain ⟨k', w⟩ := f
      rw [insert]
      split
      next same =>
        subst same
        simp only [get?]
        split <;> rfl
      next other =>
        simp only [get?, ih]
        grind

theorem mem_of_get? {k : Text} {v : α} {d : Dictionary α} (found : get? k d = some v) :
    (k, v) ∈ d := by
  induction d with
  | nil => cases found
  | cons f d ih =>
      obtain ⟨k', w⟩ := f
      rw [get?] at found
      split at found
      next same =>
        cases found
        exact same ▸ List.mem_cons_self
      next => exact List.mem_cons_of_mem _ (ih found)

theorem get?_append (k : Text) (d d' : Dictionary α) :
    get? k (d ++ d') = (get? k d).or (get? k d') := by
  induction d with
  | nil => rfl
  | cons f d ih =>
      rw [List.cons_append, get?, get?]
      split
      · rfl
      · exact ih

theorem get?_none {k : Text} {d : Dictionary α} (new : k ∉ d.map Prod.fst) : get? k d = none := by
  cases found : get? k d with
  | none => rfl
  | some v => exact absurd (List.mem_map_of_mem (mem_of_get? found)) new

/-- The order of the entries does not matter for what is found. -/
theorem get?_perm {d d' : Dictionary α} (same : d.Perm d') (distinct : (d.map Prod.fst).Nodup)
    (k : Text) : get? k d = get? k d' := by
  induction same with
  | nil => rfl
  | cons f _ ih => rw [get?, get?, ih (List.nodup_cons.mp distinct).2]
  | swap f g d =>
      have other : g.1 ≠ f.1 := by
        intro same
        exact (List.nodup_cons.mp distinct).1 (same ▸ List.mem_cons_self)
      simp only [get?]
      grind
  | trans first _ ih ih' =>
      rw [ih distinct]
      exact ih' ((first.map Prod.fst).nodup_iff.mp distinct)

theorem insert_insert (key : Text) (v w : α) (d : Dictionary α) :
    insert key v (insert key w d) = insert key v d := by
  induction d with
  | nil => simp [insert]
  | cons f d ih =>
      obtain ⟨k, u⟩ := f
      by_cases same : k = key
      · simp [insert, same]
      · simp only [insert, if_neg same, ih]

/-- The order of two keys does not matter if one of them is there. -/
theorem insert_comm {key k : Text} {d : Dictionary α} (other : key ≠ k)
    (there : k ∈ d.map Prod.fst) (v w : α) :
    insert key v (insert k w d) = insert k w (insert key v d) := by
  induction d with
  | nil => cases there
  | cons f d ih =>
      obtain ⟨k', u⟩ := f
      by_cases first : k' = k
      · subst first
        simp [insert, Ne.symm other]
      · have later : k ∈ d.map Prod.fst := (List.mem_cons.mp there).resolve_left (Ne.symm first)
        by_cases second : k' = key
        · subst second
          simp [insert, first]
        · simp only [insert, if_neg first, if_neg second, ih later]

/-- Where the same comes of inserting a key, it also comes of it after another key that is there was
    inserted. -/
theorem insert_beside {key k : Text} {v w : α} {d d' : Dictionary α}
    (same : insert key v d = insert key v d') (there : k ∈ d.map Prod.fst) :
    insert key v (insert k w d) = insert key v (insert k w d') := by
  by_cases together : key = k
  · rw [together, insert_insert, insert_insert, ← together, same]
  · have kept : k ∈ (insert key v d').map Prod.fst := by
      rw [← same, keys_insert]
      split
      · exact there
      · exact List.mem_append_left _ there
    have there' : k ∈ d'.map Prod.fst := by
      rw [keys_insert] at kept
      split at kept
      · exact kept
      · simpa [Ne.symm together] using kept
    rw [insert_comm together there, insert_comm together there', same]

/-! ## Many entries -/

/-- The dictionary with entries inserted one after the other. -/
def insertAll (d : Dictionary α) (entries : List (Text × α)) : Dictionary α :=
  entries.foldl (fun d (k, v) => insert k v d) d

theorem insertAll_append (d : Dictionary α) (first second : List (Text × α)) :
    insertAll d (first ++ second) = insertAll (insertAll d first) second :=
  List.foldl_append

theorem insertAll_distinct {d entries : Dictionary α}
    (distinct : ((d ++ entries).map Prod.fst).Nodup) : insertAll d entries = d ++ entries := by
  induction entries generalizing d with
  | nil => rw [insertAll, List.foldl_nil, List.append_nil]
  | cons f entries ih =>
      obtain ⟨key, v⟩ := f
      have new : key ∉ d.map Prod.fst := by
        rw [List.map_append] at distinct
        intro old
        exact (List.nodup_append.mp distinct).2.2 key old key List.mem_cons_self rfl
      rw [List.append_cons] at distinct ⊢
      rw [← ih distinct, ← insert_new new]
      rfl

/-- Entries whose keys differ are a dictionary as they stand. -/
theorem ofEntries_distinct {entries : Dictionary α} (distinct : (entries.map Prod.fst).Nodup) :
    ofEntries entries = entries :=
  insertAll_distinct (d := []) distinct

/-- The last entry for a key counts. -/
theorem get?_insertAll (k : Text) (entries : List (Text × α)) (d : Dictionary α) :
    get? k (insertAll d entries) =
      ((entries.filter (·.1 = k)).getLast?.map Prod.snd).or (get? k d) := by
  induction entries generalizing d with
  | nil => rfl
  | cons f entries ih =>
      obtain ⟨key, v⟩ := f
      rw [insertAll, List.foldl_cons, ← insertAll, ih, get?_insert]
      by_cases same : key = k
      · rw [List.filter_cons_of_pos (by simpa using same), if_pos same]
        cases later : entries.filter (·.1 = k) with
        | nil => rfl
        | cons g more => simp [List.getLast?_cons]
      · rw [List.filter_cons_of_neg (by simpa using same), if_neg same]

theorem keys_insertAll (k : Text) (entries : List (Text × α)) (d : Dictionary α) :
    k ∈ (insertAll d entries).map Prod.fst ↔ k ∈ d.map Prod.fst ∨ k ∈ entries.map Prod.fst := by
  induction entries generalizing d with
  | nil => simp [insertAll]
  | cons f entries ih =>
      obtain ⟨key, v⟩ := f
      rw [insertAll, List.foldl_cons, ← insertAll, ih, keys_insert]
      split <;> grind

theorem nodup_insertAll (entries : List (Text × α)) {d : Dictionary α}
    (distinct : (d.map Prod.fst).Nodup) : ((insertAll d entries).map Prod.fst).Nodup := by
  induction entries generalizing d with
  | nil => exact distinct
  | cons f entries ih => exact ih (nodup_insert distinct f.1 f.2)

end ApprovedOps.Dictionary
