import ApprovedOps.Proofs.Command.Added
import ApprovedOps.Proofs.Terminal.Tags

/-! # Records that are listed

A listing of what was loaded ends well, with the number of the records in its last line, just when the
level of messages is known and no text in the table closes a style that is not open. Who writes a
comment can stop the listing of all records.
-/

namespace ApprovedOps

namespace Command

variable {w w' : Workspace} {words : List Text} {g : Given} {s : Settings} {records : List Record}

/-! ## Lines -/

/-- Does the line reach the body of the command that lists records? It does not ask for help, and this
    is given to the command. -/
structure Lists (words : List Text) (g : Given) : Prop where
  line : ∃ front rest, programForm.read words = .ok front ∧ shown? programForm front = none ∧
    front.arguments = Verb.list.word :: rest ∧ listForm.read rest = .ok g
  body : shown? listForm g = none
  arguments : g.arguments = []

/-- What a line gives that asks for one namespace, or for none. -/
def listGiven (ns : Option Text) : Given where
  switches := (ns.map fun ns => (Text.ofString "--namespace", ns)).toList

theorem lists_all : Lists ["list"] (listGiven none) :=
  ⟨⟨_, _, rfl, rfl, rfl, rfl⟩, rfl, rfl⟩

theorem lists_namespace (ns : Text) : Lists ["list", "--namespace", ns] (listGiven (some ns)) :=
  ⟨⟨_, _, rfl, rfl, rfl, rfl⟩, rfl, rfl⟩

theorem run_lists (lists : Lists words g) (w : Workspace) (input : List UInt8) :
    run w input words = (w, list w (g.value? "--namespace")) := by
  obtain ⟨front, rest, read, nothing, arguments, given⟩ := lists.line
  have some_ : words ≠ [] := by
    rintro rfl
    cases read
    cases arguments
  have verb : Verb.ofWord? Verb.list.word = some .list := by decide
  have fits : argumentMisuse? listForm g.arguments = none := by rw [lists.arguments]; rfl
  rw [run, if_neg some_, read]
  simp only [nothing, arguments, verb, runVerb, Verb.form, given, runWith, lists.body, fits]

/-! ## Reports -/

/-- What is read from the store is read from the one that was loaded, in whichever file system. -/
theorem fromStore_loaded (here : settingsHere w = .ok s)
    (loaded : w.withStore s true (fun store => (store, store.load)) = .ok (w', .ok records)) :
    ∃ (σ : Type) (_ : Files σ) (store : Store σ), store.load = .ok records ∧
      ∀ {α : Type} (use : {σ : Type} → [Files σ] → Settings → Store σ → Except Ending α),
        fromStore w use = use s store := by
  obtain ⟨medium, given, loaded⟩ := except_bind_ok loaded
  cases medium with
  | disk =>
      refine ⟨_, _, _, (Prod.mk.inj (Except.ok.inj loaded)).2, fun use => ?_⟩
      rw [fromStore, here]
      dsimp only [bind, Except.bind, Workspace.withStore]
      rw [given]
      rfl
  | memory =>
      refine ⟨_, _, _, (Prod.mk.inj (Except.ok.inj loaded)).2, fun use => ?_⟩
      rw [fromStore, here]
      dsimp only [bind, Except.bind, Workspace.withStore]
      rw [given]
      rfl

theorem list_loaded (found : w.settings none = .ok s) (known : levels.contains s.level = true)
    (loaded : w.withStore s true (fun store => (store, store.load)) = .ok (w', .ok records))
    (ns : Option Text) :
    list w ns = listReport (s.name.display []) (records.filter fun r => ns.all (r.ns = ·)) := by
  have here : settingsHere w = .ok s := by rw [settingsHere, found]; exact if_pos known
  obtain ⟨σ, files, store, load, reads⟩ := fromStore_loaded here loaded
  rw [list, reads, load]
  rfl

theorem list_unknown (found : w.settings none = .ok s) (unknown : levels.contains s.level = false)
    (ns : Option Text) : list w ns = .breakdown (.unknownLevel s.level) := by
  have here : settingsHere w = .error (.broken (.unknownLevel s.level)) := by
    rw [settingsHere, found]
    exact if_neg (Bool.eq_false_iff.mp unknown)
  rw [list, fromStore, here]
  rfl

/-- The last line of a listing. -/
def countLine (records : List Record) : Text :=
  .concat [.ofNat records.length, " operation(s)\n"]

/-- The texts in the table of records. -/
def listTexts (name : Text) (records : List Record) : List Text :=
  (listTable name records).texts

theorem listReport_drawn {name : Text} {table : Table}
    (shown : (listTable name records).withoutMarkup = .ok table)
    (printable : ∀ x ∈ listTexts name records, ∀ y, Table.plain x = .ok y → y.Scalar) :
    listReport name records = { output := table.draw terminalWidth ++ countLine records } := by
  obtain ⟨columns, texts⟩ := Table.mem_texts_of_withoutMarkup shown
  have headers : ∀ c ∈ table.columns, c.header.Scalar := by
    rw [columns]
    exact fun c among => (Text.chars?_isSome _).mp
      ((by decide : ∀ c ∈ listColumns, c.header.chars?.isSome = true) c among)
  have drawn : (table.draw terminalWidth).Scalar := by
    refine Table.scalar_draw headers (fun y among => ?_) _
    obtain ⟨x, inside, read⟩ := texts y among
    exact printable x inside y read
  have counted : (countLine records).Scalar := by
    simp only [countLine, Text.concat, List.flatten_cons, List.flatten_nil, Text.scalar_append,
      Text.scalar_ofString, Text.ofNat, Text.scalar_nil, and_self]
  rw [listReport, Table.render, shown]
  simp only [Except.map, Report.writing, (Text.chars?_isSome _).mpr drawn, if_true]
  rw [← countLine, if_pos ((Text.chars?_isSome _).mpr counted)]
  rfl

theorem listReport_failed {name : Text} {e : Markup.Failure}
    (failed : (listTable name records).withoutMarkup = .error e) :
    listReport name records = .breakdown (.markup e) := by
  rw [listReport, Table.render, failed]
  rfl

/-- A project with one operation in its store. -/
def projectWith (operation : String) : Workspace where
  disk := {
    files := [(["p", ".allowlist", "queries", "A.gql"], (Utf8.encode? operation).getD [])]
    directories := [["p"], ["p", ".allowlist"], ["p", ".allowlist", "queries"]]
    working := ["p"] }

end Command

end ApprovedOps
