import Mathlib.Logic.Relation
import ApprovedOps.Proofs.Dictionary
import ApprovedOps.Proofs.Except
import ApprovedOps.Record.Fields

/-! # Mappings of the same record

A field is found by its key in lower case. So it does not matter how the keys of a mapping are
written or in which order its entries come, and the same goes for the iteration hint inside it. What
a record is written as is read as that record.
-/

namespace ApprovedOps

namespace Fields

/-- The entries of a mapping with the lower case of the texts of their keys. -/
def lowered (table : List Value) (entries : List (Value × Value)) : Dictionary Value :=
  entries.map fun (k, v) => ((k.display table).lower, v)

@[simp] theorem lowered_append (table : List Value) (es fs : List (Value × Value)) :
    lowered table (es ++ fs) = lowered table es ++ lowered table fs :=
  List.map_append

@[simp] theorem lowered_cons (table : List Value) (k v : Value) (es : List (Value × Value)) :
    lowered table ((k, v) :: es) = ((k.display table).lower, v) :: lowered table es :=
  rfl

/-- Do the keys of a mapping differ in lower case? -/
def Differ (table : List Value) (entries : List (Value × Value)) : Prop :=
  ((lowered table entries).map Prod.fst).Nodup

instance (table : List Value) (entries : List (Value × Value)) : Decidable (Differ table entries) :=
  inferInstanceAs (Decidable (List.Nodup _))

/-- Do the keys of a mapping differ in lower case, and those of the iteration hint in it? -/
structure Distinct (table : List Value) (entries : List (Value × Value)) : Prop where
  keys : Differ table entries
  hint : ∀ v inner, (Text.ofString "order", v) ∈ lowered table entries →
    v.resolve table = .mapping inner → Differ table inner

/-- A change of the entries of a mapping: they come in another order, or one has another key with
    the same lower case. -/
inductive Respelling (table : List Value) : List (Value × Value) → List (Value × Value) → Prop where
  | order {es fs} : es.Perm fs → Respelling table es fs
  | key {front back k k' v} : (k.display table).lower = (k'.display table).lower →
      Respelling table (front ++ (k, v) :: back) (front ++ (k', v) :: back)

/-- A change of the entries of a mapping, or of the entries of the iteration hint in it. -/
inductive Change (table : List Value) : List (Value × Value) → List (Value × Value) → Prop where
  | entries {es fs} : Respelling table es fs → Change table es fs
  | hint {front back k v w inner inner'} : (k.display table).lower = Text.ofString "order" →
      v.resolve table = .mapping inner → w.resolve table = .mapping inner' →
      Respelling table inner inner' →
      Change table (front ++ (k, v) :: back) (front ++ (k, w) :: back)

variable {table : List Value} {es fs : List (Value × Value)}

/-! ## What is found -/

theorem lowerKeys_of_differ (differ : Differ table es) : lowerKeys table es = lowered table es :=
  Dictionary.ofEntries_distinct differ

theorem Respelling.lowered_perm (h : Respelling table es fs) :
    (lowered table es).Perm (lowered table fs) := by
  cases h with
  | order same => exact same.map _
  | key same =>
      rw [lowered_append, lowered_append, lowered_cons, lowered_cons, same]

theorem Respelling.differ (h : Respelling table es fs) (differ : Differ table es) :
    Differ table fs :=
  (h.lowered_perm.map Prod.fst).nodup_iff.mp differ

theorem Respelling.get? (h : Respelling table es fs) (differ : Differ table es) (key : Text) :
    Dictionary.get? key (lowerKeys table fs) = Dictionary.get? key (lowerKeys table es) := by
  rw [lowerKeys_of_differ differ, lowerKeys_of_differ (h.differ differ)]
  exact (Dictionary.get?_perm h.lowered_perm differ key).symm

theorem text_congr {key : String} {d d' : Dictionary Value}
    (same : Dictionary.get? (Text.ofString key) d = Dictionary.get? (Text.ofString key) d') :
    text table key d = text table key d' := by
  rw [text, text, same]

theorem order_congr {d d' : Dictionary Value}
    (same : Dictionary.get? (Text.ofString "order") d =
      Dictionary.get? (Text.ofString "order") d') : order table d = order table d' := by
  rw [order, order, same]

theorem Respelling.blank (h : Respelling table es fs) :
    (Value.mapping fs).isBlank = (Value.mapping es).isBlank := by
  have size := h.lowered_perm.length_eq
  rw [lowered, lowered, List.length_map, List.length_map] at size
  cases es <;> cases fs <;> simp_all [Value.isBlank]

theorem order_hint {d d' : Dictionary Value} {v w : Value}
    (found : Dictionary.get? (Text.ofString "order") d = some v)
    (found' : Dictionary.get? (Text.ofString "order") d' = some w)
    (mapping : v.resolve table = .mapping es) (mapping' : w.resolve table = .mapping fs)
    (h : Respelling table es fs) (differ : Differ table es) : order table d' = order table d := by
  have target : text table "var" (lowerKeys table fs) = text table "var" (lowerKeys table es) :=
    text_congr (h.get? differ _)
  simp only [order, found, found', Option.map_some, mapping, mapping', h.blank, target,
    h.get? differ]

/-! ## What changes keep -/

/-- The hint of a mapping whose keys differ is in one of its entries only. -/
theorem get?_hint {front back : List (Value × Value)} {k v : Value}
    (isOrder : (k.display table).lower = Text.ofString "order")
    (differ : Differ table (front ++ (k, v) :: back)) :
    Dictionary.get? (Text.ofString "order") (lowerKeys table (front ++ (k, v) :: back)) =
      some v := by
  rw [lowerKeys_of_differ differ, lowered_append, lowered_cons, isOrder, Dictionary.get?_append]
  have new : Text.ofString "order" ∉ (lowered table front).map Prod.fst := by
    rw [Differ, lowered_append, lowered_cons, isOrder, List.map_append] at differ
    intro old
    exact (List.nodup_append.mp differ).2.2 _ old _ List.mem_cons_self rfl
  rw [Dictionary.get?_none new, Option.none_or, Dictionary.get?, if_pos rfl]

theorem Change.keys (change : Change table es fs) :
    ((lowered table es).map Prod.fst).Perm ((lowered table fs).map Prod.fst) := by
  cases change with
  | entries h => exact h.lowered_perm.map _
  | hint => simp only [lowered_append, lowered_cons, List.map_append, List.map_cons, List.Perm.refl]

theorem Change.distinct (change : Change table es fs) (distinct : Distinct table es) :
    Distinct table fs := by
  refine ⟨change.keys.nodup_iff.mp distinct.keys, ?_⟩
  intro u inner among mapping
  cases change with
  | entries h => exact distinct.hint u inner (h.lowered_perm.mem_iff.mpr among) mapping
  | @hint front back k v w old new isOrder holds holds' h =>
      have old_ := distinct.hint v old (by simp [isOrder]) holds
      rw [lowered_append, lowered_cons, isOrder, List.mem_append, List.mem_cons] at among
      obtain before | here | behind := among
      · exact distinct.hint u inner (by simp [before]) mapping
      · cases here
        cases holds'.symm.trans mapping
        exact h.differ old_
      · exact distinct.hint u inner (by simp [behind]) mapping

theorem Change.order (change : Change table es fs) (distinct : Distinct table es) :
    Fields.order table (lowerKeys table fs) = Fields.order table (lowerKeys table es) := by
  have distinct' := change.distinct distinct
  cases change with
  | entries h => exact order_congr (h.get? distinct.keys _)
  | @hint front back k v w inner inner' isOrder holds holds' h =>
      have differ := distinct.hint v inner (by simp [isOrder]) holds
      exact order_hint (get?_hint isOrder distinct.keys) (get?_hint isOrder distinct'.keys) holds
        holds' h differ

theorem Change.text (change : Change table es fs) (distinct : Distinct table es) (key : String)
    (other : Text.ofString key ≠ Text.ofString "order") :
    Fields.text table key (lowerKeys table fs) = Fields.text table key (lowerKeys table es) := by
  have distinct' := change.distinct distinct
  apply text_congr
  cases change with
  | entries h => exact h.get? distinct.keys _
  | hint isOrder =>
      rw [lowerKeys_of_differ distinct.keys, lowerKeys_of_differ distinct'.keys]
      simp only [lowered_append, lowered_cons, isOrder, Dictionary.get?_append, Dictionary.get?,
        if_neg other.symm]

theorem Change.record (change : Change table es fs) (distinct : Distinct table es) :
    Record.ofEntries table fs = Record.ofEntries table es := by
  have ns := change.text distinct "namespace" (by decide)
  have name := change.text distinct "name" (by decide)
  have comment := change.text distinct "comment" (by decide)
  have query := change.text distinct "query" (by decide)
  have vars := change.text distinct "vars" (by decide)
  simp only [Record.ofEntries, change.order distinct, ns, name, comment, query, vars]

/-- Any number of changes keep the record of a mapping, also where there is none. -/
theorem changes_record (changes : Relation.ReflTransGen (Change table) es fs)
    (distinct : Distinct table es) :
    Distinct table fs ∧ Record.ofEntries table fs = Record.ofEntries table es := by
  induction changes with
  | refl => exact ⟨distinct, rfl⟩
  | tail _ change ih =>
      obtain ⟨distinct', same⟩ := ih
      exact ⟨change.distinct distinct', (change.record distinct').trans same⟩

end Fields

/-! ## Reading what is written -/

/-- Written fields as a dictionary. -/
def WrittenField.dictionary (fs : List (Text × WrittenField)) : Dictionary Value :=
  fs.map fun (key, f) => (key, f.value)

/-- The keys of the fields of a record. -/
def Record.fieldKeys : List Text :=
  ["namespace", "name", "comment", "query", "vars", "order"]

/-- The keys of the fields of an iteration hint. -/
def Order.fieldKeys : List Text :=
  ["var", "values"]

theorem Record.fieldKeys_lower : ∀ key ∈ fieldKeys, key.lower = key := by decide

theorem Order.fieldKeys_lower : ∀ key ∈ fieldKeys, key.lower = key := by decide

theorem Text.ofString_inj {s t : String} : Text.ofString s = Text.ofString t ↔ s = t := by
  have injective (c d : Char) (same : CodePoint.char c = .char d) : c = d := by
    cases same
    rfl
  rw [ofString, ofString, List.map_inj_right injective, String.toList_inj]

namespace Fields

variable {table : List Value}

theorem lowered_entries (table : List Value) (fs : List (Text × WrittenField)) :
    lowered table (WrittenField.entries fs) = fs.map fun (key, f) => (key.lower, f.value) := by
  induction fs with
  | nil => rfl
  | cons f fs ih =>
      obtain ⟨key, f⟩ := f
      rw [WrittenField.entries, lowered_cons, ih]
      rfl

/-- Written fields are found by their keys, if these are in lower case and differ. -/
theorem lowerKeys_entries (table : List Value) {fs : List (Text × WrittenField)} {keys : List Text}
    (among : (fs.map Prod.fst).Sublist keys) (lower : ∀ key ∈ keys, key.lower = key)
    (distinct : keys.Nodup) :
    lowerKeys table (WrittenField.entries fs) = WrittenField.dictionary fs := by
  have same : lowered table (WrittenField.entries fs) = WrittenField.dictionary fs := by
    rw [lowered_entries]
    refine List.map_congr_left fun f member => ?_
    exact Prod.ext (lower f.1 (among.subset (List.mem_map_of_mem member))) rfl
  have differ : Differ table (WrittenField.entries fs) := by
    rw [Differ, same, WrittenField.dictionary, List.map_map]
    exact distinct.sublist among
  rw [lowerKeys_of_differ differ, same]

/-- What is found of a text that is written only if it says something. -/
def said (t : Text) : Option Value :=
  if t = [] then none else some (.string t)

theorem text_string {key : String} {d : Dictionary Value} {t : Text}
    (found : Dictionary.get? (Text.ofString key) d = some (.string t)) : text table key d = t := by
  rw [text, found]
  cases t <;> rfl

theorem text_said {key : String} {d : Dictionary Value} {t : Text}
    (found : Dictionary.get? (Text.ofString key) d = said t) : text table key d = t := by
  rw [said] at found
  split at found
  next nothing => rw [text, found, nothing]
  next => exact text_string found

theorem display_strings (table : List Value) (ts : List Text) :
    (ts.map Value.string).map (Value.display table) = ts := by
  rw [List.map_map]
  exact List.map_id ts

end Fields

namespace WrittenField

section

variable (silent : Prop) [Decidable silent] (key : Text) (f : WrittenField)

/-- A field is written under its key, unless it says nothing. -/
theorem field_keys : ((if silent then [] else [(key, f)]).map Prod.fst).Sublist [key] := by
  split
  · exact List.nil_sublist _
  · exact .refl _

theorem get?_field (k : Text) :
    Dictionary.get? k (dictionary (if silent then [] else [(key, f)])) =
      if key = k then if silent then none else some f.value else none := by
  split
  · simp [dictionary, Dictionary.get?]
  · simp [dictionary, Dictionary.get?]

end

@[simp] theorem dictionary_append (fs gs : List (Text × WrittenField)) :
    dictionary (fs ++ gs) = dictionary fs ++ dictionary gs :=
  List.map_append

theorem get?_optional (k : Text) (key : String) (t : Text) :
    Dictionary.get? k (dictionary (Record.optionalField key t)) =
      if Text.ofString key = k then Fields.said t else none :=
  get?_field (t = []) (Text.ofString key) (.text t) k

theorem get?_order (k : Text) (o : Order) :
    Dictionary.get? k (dictionary o.writtenFields) =
      if Text.ofString "order" = k then
        if o.isEmpty then none else some (.mapping (entries o.written))
      else none :=
  get?_field o.isEmpty (Text.ofString "order") (.fields o.written) k

end WrittenField

namespace Order

open WrittenField

variable {table : List Value} {o : Order}

theorem written_eq (o : Order) : o.written = Record.optionalField "var" o.target ++
    if o.values = [] then [] else [(Text.ofString "values", .texts o.values)] :=
  rfl

theorem written_keys (o : Order) : (o.written.map Prod.fst).Sublist fieldKeys := by
  rw [written, List.map_append]
  exact (field_keys _ _ _).append (field_keys _ _ _)

theorem get?_target (o : Order) :
    Dictionary.get? (Text.ofString "var") (dictionary o.written) = Fields.said o.target := by
  rw [written_eq, dictionary_append, Dictionary.get?_append, get?_optional, if_pos rfl, get?_field,
    if_neg (by decide), Option.or_none]

theorem get?_values (o : Order) :
    Dictionary.get? (Text.ofString "values") (dictionary o.written) =
      if o.values = [] then none else some (.list (o.values.map .string)) := by
  rw [written_eq, dictionary_append, Dictionary.get?_append, get?_optional, if_neg (by decide),
    Option.none_or, get?_field, if_pos rfl]
  rfl

theorem written_said (some_ : ¬o.isEmpty = true) :
    (Value.mapping (entries o.written)).isBlank = false := by
  obtain ⟨target, values⟩ := o
  cases target <;> cases values <;> simp_all [isEmpty, written, entries, Value.isBlank]

/-- The hint that is written is read. -/
theorem read_written {d : Dictionary Value}
    (found : Dictionary.get? (Text.ofString "order") d =
      if o.isEmpty then none else some (.mapping (entries o.written))) :
    Fields.order table d = .ok o := by
  by_cases nothing : o.isEmpty = true
  · obtain ⟨target, values⟩ := o
    obtain ⟨rfl, rfl⟩ : target = [] ∧ values = [] := by simpa [isEmpty] using nothing
    rw [Fields.order, found]
    rfl
  · have hint := Fields.lowerKeys_entries table o.written_keys fieldKeys_lower (by decide)
    have target : Fields.text table "var" (dictionary o.written) = o.target :=
      Fields.text_said o.get?_target
    simp only [Fields.order, found, if_neg nothing, Option.map_some, Value.resolve,
      written_said nothing, hint, target, get?_values]
    by_cases none_ : o.values = []
    · have whole : (.ok ⟨o.target, []⟩ : Except FieldError Order) = .ok o := by rw [← none_]
      rw [if_pos none_]
      exact whole
    · have some_ : (Value.list (o.values.map .string)).isBlank = false := by
        simpa [Value.isBlank] using none_
      simp only [if_neg none_, Option.map_some, Value.resolve, some_, Fields.elements?,
        Fields.display_strings]
      rfl

end Order

namespace Record

open WrittenField

theorem written_keys (r : Record) : (r.written.map Prod.fst).Sublist fieldKeys := by
  simp only [written, List.map_append]
  exact (((((field_keys _ _ _).append (.refl _)).append (field_keys _ _ _)).append
    (.refl _)).append (field_keys _ _ _)).append (field_keys _ _ _)

theorem get?_written (k : Text) (r : Record) :
    Dictionary.get? k (dictionary r.written) =
      ((((((if Text.ofString "namespace" = k then Fields.said r.ns else none).or
        (if Text.ofString "name" = k then some (.string r.name) else none)).or
        (if Text.ofString "comment" = k then Fields.said r.comment else none)).or
        (if Text.ofString "query" = k then some (.string r.query) else none)).or
        (if Text.ofString "vars" = k then Fields.said r.vars else none)).or
        (if Text.ofString "order" = k then
          if r.order.isEmpty then none else some (.mapping (entries r.order.written))
        else none)) := by
  simp only [written, dictionary_append, Dictionary.get?_append, get?_optional, get?_order]
  rfl

/-- What a record is written as is read as that record, without its fragments. -/
theorem ofEntries_written (table : List Value) (r : Record) :
    ofEntries table (entries r.written) = .ok r.bare := by
  have fields := Fields.lowerKeys_entries table r.written_keys fieldKeys_lower (by decide)
  have found (key : String) := r.get?_written (Text.ofString key)
  simp only [Text.ofString_inj] at found
  have ns : Fields.text table "namespace" (dictionary r.written) = r.ns :=
    Fields.text_said ((found "namespace").trans (by simp))
  have name : Fields.text table "name" (dictionary r.written) = r.name :=
    Fields.text_string ((found "name").trans (by simp))
  have comment : Fields.text table "comment" (dictionary r.written) = r.comment :=
    Fields.text_said ((found "comment").trans (by simp))
  have query : Fields.text table "query" (dictionary r.written) = r.query :=
    Fields.text_string ((found "query").trans (by simp))
  have vars : Fields.text table "vars" (dictionary r.written) = r.vars :=
    Fields.text_said ((found "vars").trans (by simp))
  have order : Fields.order table (dictionary r.written) = .ok r.order :=
    Order.read_written ((found "order").trans (by simp))
  simp only [ofEntries, fields, order, ns, name, comment, query, vars]
  rfl

/-- The fragments of a record do not come from its mapping. -/
theorem ofEntries_bare {table : List Value} {es : List (Value × Value)} {r : Record}
    (decoded : ofEntries table es = .ok r) : r.bare = r := by
  obtain ⟨order, -, same⟩ := except_bind_ok decoded
  cases same
  rfl

/-- A record that was read from a mapping is read again from what it is written as. If the keys of
    the mapping differ in lower case, and so do those of the iteration hint, the same record is read
    from the mapping in any order and with any keys that have the same lower case, there and in the
    hint. -/
theorem ofEntries_projects {table : List Value} {es : List (Value × Value)} {r : Record}
    (decoded : ofEntries table es = .ok r) :
    (∀ table', ofEntries table' (entries r.written) = .ok r) ∧
      (Fields.Distinct table es → ∀ fs, Relation.ReflTransGen (Fields.Change table) es fs →
        ofEntries table fs = .ok r) := by
  constructor
  · intro table'
    rw [ofEntries_written, ofEntries_bare decoded]
  · intro distinct fs changes
    rw [(Fields.changes_record changes distinct).2, decoded]

/-- A mapping with capitals in its keys, and values of several kinds. -/
def capitals : List (Value × Value) :=
  [(.string "Name", .date ⟨2024, 5, 1⟩), (.string "QUERY", .string "query A"),
    (.string "vars", .bool false),
    (.string "Order", .mapping [(.string "VAR", .string "x"), (.string "Values", .string "ab")])]

/-- The same with the name under another key, and the hint in another order. -/
def capitals' : List (Value × Value) :=
  [(.string "nAME", .date ⟨2024, 5, 1⟩), (.string "QUERY", .string "query A"),
    (.string "vars", .bool false),
    (.string "Order", .mapping [(.string "Values", .string "ab"), (.string "VAR", .string "x")])]

theorem ofEntries_projects_capitals :
    ∃ r, ofEntries [] capitals = .ok r ∧ r.order = ⟨"x", ["a", "b"]⟩ ∧
      ofEntries [] (entries r.written) = .ok r ∧ ofEntries [] capitals' = .ok r := by
  have decoded : ofEntries [] capitals =
      .ok { name := "2024-05-01", query := "query A", order := ⟨"x", ["a", "b"]⟩ } :=
    except_ok (by decide +kernel)
  have distinct : Fields.Distinct [] capitals := by
    have all : Fields.lowered [] capitals =
      [(Text.ofString "name", .date ⟨2024, 5, 1⟩), (Text.ofString "query", .string "query A"),
        (Text.ofString "vars", .bool false), (Text.ofString "order",
          .mapping [(.string "VAR", .string "x"), (.string "Values", .string "ab")])] := rfl
    constructor
    · decide +kernel
    · intro v inner among mapping
      obtain rfl := by simpa [all, Text.ofString_inj] using among
      cases mapping
      decide +kernel
  have named : Fields.Change [] capitals
      ((.string "nAME", .date ⟨2024, 5, 1⟩) :: capitals.tail) :=
    .entries (@Fields.Respelling.key [] [] _ _ _ _ (by decide +kernel))
  have swapped : Fields.Change []
      ((.string "nAME", .date ⟨2024, 5, 1⟩) :: capitals.tail) capitals' :=
    @Fields.Change.hint [] [_, _, _] _ _ _ _ _ _ (by decide +kernel) rfl rfl
      (.order (.swap _ _ _))
  have changes := (Relation.ReflTransGen.single named).tail swapped
  obtain ⟨again, respelled⟩ := ofEntries_projects decoded
  exact ⟨_, decoded, rfl, again [], respelled distinct _ changes⟩

end Record

end ApprovedOps
