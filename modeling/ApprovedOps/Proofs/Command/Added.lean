import ApprovedOps.Command.Line
import ApprovedOps.Proofs.Store.AtRest
import ApprovedOps.Proofs.Store.Shelved

/-! # Documents that are added from the command line

A line that submits a document ends well only if its record was processed, alone, by the store that
the settings tell, and was saved whole; what is written then is the path of its file. So a document
that is rejected, a record that is given up and a file that is not written all show in the status.
Where the files lie is another matter, which the namespace decides.

The proofs go from the line to the store: what ends well is taken apart one function after the other.
-/

namespace ApprovedOps

open Store

namespace Command

/-! ## Saving -/

theorem well_of_status {e : Ending} (h : e.status = 0) : e = .well := by
  cases e with
  | well => rfl
  | _ => cases h

theorem andThen_well {r next : Report} (well : (r.andThen next).ending = .well) :
    r.ending = .well ∧ next.ending = .well ∧ (r.andThen next).output = r.output ++ next.output := by
  unfold Report.andThen at well ⊢
  split at well
  next ended =>
    simp only [ended]
    exact ⟨trivial, well, trivial⟩
  next other => exact absurd well other

theorem writing_well {t : Text} (well : (Report.writing t).ending = .well) :
    (Report.writing t).output = t := by
  unfold Report.writing at well ⊢
  split at well
  next readable => rw [if_pos readable]
  next => cases well

/-- A report on what was saved ends well only if everything was, and tells the paths. -/
theorem savedReport_well {results : List SaveResult}
    (well : (savedReport results).ending = .well) :
    (∀ r ∈ results, r.error = none) ∧
      (savedReport results).output = results.flatMap fun r => r.path ++ [.char '\n'] := by
  induction results with
  | nil => exact ⟨nofun, rfl⟩
  | cons r rest ih =>
      rw [savedReport] at well ⊢
      split at well
      next => cases well
      next saved =>
        obtain ⟨first, later, output⟩ := andThen_well well
        obtain ⟨all, paths⟩ := ih later
        refine ⟨List.forall_mem_cons.mpr ⟨saved, all⟩, ?_⟩
        rw [output, writing_well first, paths]
        rfl

section

variable {σ : Type} [Files σ] {sub : Submission} {store : Store σ}

/-- To submit a document to a store at rest ends well only if the store may be written and the
    document is accepted. Then the store saves the record, as its last one, and the writer ends. -/
theorem submit_well (rest : store.machine.AtRest) (well : (submit sub store).2.ending = .well) :
    store.readOnly = false ∧ ∃ r, sub.draft = .ok r ∧
      let m := store.machine
      let closed := (submit sub store).1.machine
      closed.files = (m.shelf.save m.broken m.files r).1 ∧ closed.accepted = m.accepted ++ [r] ∧
        closed.outcomes = m.outcomes ++ [(m.shelf.save m.broken m.files r).2] ∧
        closed.writer = .ended ∧ (submit sub store).2 = savedReport closed.outcomes := by
  cases open_ : store.readOnly with
  | true =>
      rw [submit, Store.set_readOnly open_] at well
      cases well
  | false =>
      cases drafted : sub.draft with
      | error e =>
          rw [submit, Store.set_rejected rest open_ drafted] at well
          cases well
      | ok r =>
          have closes := Store.close_atRest (rest.save [.accepted r] r) open_
            (s := { store with machine := (store.machine.note [.accepted r]).save r })
          obtain ⟨files, accepted, outcomes⟩ := Machine.save_accepted store.machine r
          refine ⟨rfl, r, rfl, ?_⟩
          rw [submit, Store.set_drafted rest open_ drafted]
          dsimp only
          rw [closes]
          exact ⟨files, accepted, outcomes, rfl, rfl⟩

/-! ## What was added -/

/-- Was a submission added to the store of some settings between its opening and its closing? Its
    record was processed, alone, and saved whole, and its path is what is written. -/
structure Added (s : Settings) (sub : Submission) (opened closed : Machine σ) (output : Text)
    (r c : Record) : Prop where
  /-- The document was accepted. -/
  drafted : sub.draft = .ok r
  /-- The record and the fragments are those of the document. -/
  parts : ∃ p, Parts.ofText sub.document = .ok p ∧ c.query = p.query ∧ c.fragments = p.fragments
  /-- The record was named, and its variables cleaned. -/
  completed : r.completed = .ok c
  ns : c.ns = sub.ns
  /-- No other record was accepted. -/
  accepted : closed.accepted = [r]
  /-- It was saved once, without a failure. -/
  outcomes : closed.outcomes = [{ record := c, path := (Shelf.ofPath s.store.toText).recordPath c }]
  /-- The writer has ended. -/
  ended : closed.writer = .ended
  /-- The same comes of every order of steps in which the record is accepted and the writer ends. -/
  anyOrder : ∀ as m, opened.follow? as = some m → Gentle as → m.writer = .ended →
    m.accepted = [r] → m.files = closed.files ∧ m.outcomes = closed.outcomes
  /-- Its files are where the settings tell. -/
  saved : (Shelf.ofPath s.store.toText).Saved opened.files closed.files c
  /-- The path of its file is written. -/
  output : output = (Shelf.ofPath s.store.toText).recordPath c ++ [.char '\n']

/-- To submit a document to the store of some settings ends well only if it was added. -/
theorem added_of_submit [KeptFiles σ] {s : Settings} {fs : σ} {closed : Store σ} {report : Report}
    (ran : submit sub (s.openStore fs) = (closed, report)) (well : report.ending = .well) :
    s.readOnly = false ∧
      ∃ r c, Added s sub (s.openStore fs).machine closed.machine report.output r c := by
  have rest : (s.openStore fs).machine.AtRest := Store.atRest_openAt fs _ _ _ _ _
  have fresh : (s.openStore fs).machine.Fresh := Store.fresh_openAt fs _ _ _ _ _
  have shelf : (s.openStore fs).machine.shelf = .ofPath s.store.toText :=
    (Store.openAt_place fs s.store.toText s.readOnly s.queueSize .attentive []).1
  obtain ⟨noneAccepted, noneSaved⟩ := fresh.nothing
  obtain ⟨writable, r, drafted, spec⟩ := submit_well rest (by rw [ran]; exact well)
  simp only [ran] at spec
  obtain ⟨files, accepted, outcomes, ended, reported⟩ := spec
  rw [noneAccepted, List.nil_append] at accepted
  rw [noneSaved, List.nil_append, shelf] at outcomes
  have anyOrder : ∀ as m, (s.openStore fs).machine.follow? as = some m → Gentle as →
      m.writer = .ended → m.accepted = [r] →
      m.files = closed.machine.files ∧ m.outcomes = closed.machine.outcomes := by
    intro as m run gentle ended accepted
    have drained := Machine.run_drained fresh run gentle ended
    rw [accepted, shelf] at drained
    rw [files, outcomes, shelf]
    exact Prod.mk.inj drained
  rw [reported, outcomes] at well
  obtain ⟨noError, output⟩ := savedReport_well well
  obtain ⟨c, completed, result, ns, parts, saved⟩ :=
    Submission.saved_whole drafted (noError _ List.mem_cons_self)
  rw [result] at outcomes output
  rw [← shelf, ← files, shelf] at saved
  refine ⟨writable, r, c, drafted, parts, completed, ns, accepted, outcomes, ended, anyOrder, saved,
    ?_⟩
  rw [reported, outcomes, output]
  simp

end

/-! ## Lines -/

/-- Does the line reach the body of the command that submits a document? It does not ask for help,
    and this is given to the command. -/
structure Reaches (words : List Text) (g : Given) : Prop where
  line : ∃ front rest, programForm.read words = .ok front ∧ shown? programForm front = none ∧
    front.arguments = Verb.add.word :: rest ∧ addForm.read rest = .ok g
  body : shown? addForm g = none

/-- Is this what is submitted with what is given? -/
structure Submits (d : Disk) (input : List UInt8) (g : Given) (sub : Submission) : Prop where
  ns : sub.ns = (g.value? "--namespace").getD []
  order : sub.order = ⟨(g.value? "--order-var").getD [], g.values "--order-value"⟩
  sources : ∃ vars document, openSources d g = .ok (vars, document) ∧
    match vars with
    | none => sub.vars = .absent ∧ (document.text input).1 = .ok sub.document
    | some source => ∃ t, (source.text input).1 = .ok t ∧ sub.vars = .text t ∧
        (document.text (source.text input).2).1 = .ok sub.document

variable {w w' : Workspace} {input : List UInt8} {words : List Text} {g : Given} {report : Report}

theorem run_reaches (reaches : Reaches words g) (w : Workspace) (input : List UInt8) :
    run w input words = runAdd w input g := by
  obtain ⟨front, rest, read, nothing, arguments, given⟩ := reaches.line
  have some_ : words ≠ [] := by
    rintro rfl
    cases read
    cases arguments
  have verb : Verb.ofWord? Verb.add.word = some .add := by decide
  rw [run, if_neg some_, read]
  simp only [nothing, arguments, verb, runVerb, Verb.form, given]

theorem submission_ok {document : Except Utf8.Failure Text}
    {vars : Option (Except Utf8.Failure Text)} {order : Order} {ns : Text} {sub : Submission}
    (h : submission document vars order ns = .ok sub) :
    document = .ok sub.document ∧ sub.order = order ∧ sub.ns = ns ∧
      ((vars = none ∧ sub.vars = .absent) ∨ ∃ t, vars = some (.ok t) ∧ sub.vars = .text t) := by
  cases document with
  | error e => rcases vars with _ | _ | _ <;> cases h
  | ok document =>
      rcases vars with _ | _ | t <;> cases h
      · exact ⟨rfl, rfl, rfl, .inl ⟨rfl, rfl⟩⟩
      · exact ⟨rfl, rfl, rfl, .inr ⟨t, rfl, rfl⟩⟩

theorem submission_error {document : Except Utf8.Failure Text}
    {vars : Option (Except Utf8.Failure Text)} {order : Order} {ns : Text} {ending : Ending}
    (h : submission document vars order ns = .error ending) : ending ≠ .well := by
  rintro rfl
  cases document with
  | error e => rcases vars with _ | _ | _ <;> cases h
  | ok document => rcases vars with _ | _ | _ <;> cases h

theorem settingsHere_error {ending : Ending} (h : settingsHere w = .error ending) :
    ending ≠ .well := by
  rintro rfl
  rw [settingsHere] at h
  split at h
  next => cases h
  next => split at h <;> cases h

/-- What is done to the store of a project is done in the file system that the settings tell. -/
theorem withStore_ok {α : Type} {s : Settings} {a : α}
    {use : {σ : Type} → [Files σ] → Store σ → Store σ × α}
    (h : w.withStore s false use = .ok (w', a)) :
    (s.medium = .ok .disk ∧ ∃ closed, use (s.openStore w.disk) = (closed, a) ∧
        w' = { w with disk := closed.machine.files }) ∨
      (s.medium = .ok .memory ∧ ∃ closed, use (s.openStore w.memory) = (closed, a) ∧
        w' = { w with memory := closed.machine.files }) := by
  rw [Workspace.withStore, Bool.or_false] at h
  obtain ⟨medium, given, h⟩ := except_bind_ok h
  cases medium with
  | disk =>
      cases h
      exact .inl ⟨given, _, rfl, rfl⟩
  | memory =>
      cases h
      exact .inr ⟨given, _, rfl, rfl⟩

theorem add_well {document : Except Utf8.Failure Text} {vars : Option (Except Utf8.Failure Text)}
    {order : Order} {ns : Text} (well : (add w document vars order ns).2.ending = .well) :
    ∃ s sub, settingsHere w = .ok s ∧ submission document vars order ns = .ok sub ∧
      w.withStore s false (fun store => submit sub store) = .ok (add w document vars order ns) := by
  unfold add at well ⊢
  cases settings : settingsHere w with
  | error ending =>
      rw [settings] at well
      exact absurd well (settingsHere_error settings)
  | ok s =>
      rw [settings] at well
      cases given : submission document vars order ns with
      | error ending =>
          simp only [given] at well
          split at well
          next w' report used =>
            obtain ⟨-, closed, ran, -⟩ | ⟨-, closed, ran, -⟩ := withStore_ok used
            · cases ran
              exact absurd well (submission_error given)
            · cases ran
              exact absurd well (submission_error given)
          next => cases well
      | ok sub =>
          refine ⟨s, sub, rfl, rfl, ?_⟩
          simp only [given] at well ⊢
          split at well
          next w' report used => rw [used]
          next => cases well

theorem runAdd_well (body : shown? addForm g = none) (well : (runAdd w input g).2.ending = .well) :
    ∃ s sub, settingsHere w = .ok s ∧ Submits w.disk input g sub ∧
      w.withStore s false (fun store => submit sub store) = .ok (runAdd w input g) := by
  unfold runAdd at well ⊢
  cases sources : openSources w.disk g with
  | error m =>
      simp only [body, sources] at well
      cases well
  | ok opened =>
      obtain ⟨vars, document⟩ := opened
      simp only [body, sources] at well ⊢
      obtain ⟨s, sub, settings, given, used⟩ := add_well well
      obtain ⟨text, order, ns, read⟩ := submission_ok given
      refine ⟨s, sub, settings, ⟨ns, order, vars, document, sources, ?_⟩, used⟩
      cases vars with
      | none =>
          obtain ⟨-, absent⟩ | ⟨t, nothing, -⟩ := read
          · exact ⟨absent, text⟩
          · cases nothing
      | some source =>
          obtain ⟨nothing, -⟩ | ⟨t, same, given⟩ := read
          · cases nothing
          · exact ⟨t, Option.some.inj same, given, text⟩

/-- A line that reaches the body of the command to submit a document ends with status zero only if
    the document was added to the store that the settings tell: exactly one record was processed, it
    was written there with all its fragments, and its path is what the command writes. So whatever is
    lost shows in the status. Where the files lie depends on the namespace. -/
theorem add_hides_nothing (reaches : Reaches words g) (ran : run w input words = (w', report))
    (well : report.ending.status = 0) :
    ∃ s sub, settingsHere w = .ok s ∧ s.readOnly = false ∧ Submits w.disk input g sub ∧
      ((s.medium = .ok .disk ∧ ∃ closed, submit sub (s.openStore w.disk) = (closed, report) ∧
          w' = { w with disk := closed.machine.files } ∧
          ∃ r c, Added s sub (s.openStore w.disk).machine closed.machine report.output r c) ∨
        (s.medium = .ok .memory ∧ ∃ closed, submit sub (s.openStore w.memory) = (closed, report) ∧
          w' = { w with memory := closed.machine.files } ∧
          ∃ r c, Added s sub (s.openStore w.memory).machine closed.machine report.output r c)) := by
  have well : report.ending = .well := well_of_status well
  rw [run_reaches reaches] at ran
  obtain ⟨s, sub, settings, submits, used⟩ := runAdd_well reaches.body (by rw [ran]; exact well)
  rw [ran] at used
  obtain ⟨medium, closed, ran, files⟩ | ⟨medium, closed, ran, files⟩ := withStore_ok used
  · obtain ⟨writable, added⟩ := added_of_submit ran well
    exact ⟨s, sub, settings, writable, submits, .inl ⟨medium, closed, ran, files, added⟩⟩
  · obtain ⟨writable, added⟩ := added_of_submit ran well
    exact ⟨s, sub, settings, writable, submits, .inr ⟨medium, closed, ran, files, added⟩⟩

/-- A new project, whose directory is the working directory. -/
def newProject : Workspace :=
  (run { disk := { directories := [["p"]], working := ["p"] } } [] ["init", "gw"]).1

/-- A line that submits the standard input under a namespace. -/
def addLine (ns : Text) : List Text :=
  ["add", "-n", ns, "-"]

/-- What a line gives to the command that submits the standard input under a namespace. -/
def addGiven (ns : Text) : Given where
  switches := [("--namespace", ns)]
  arguments := ["-"]

/-- An operation with a fragment. -/
def documentInput : List UInt8 :=
  (Utf8.encode? "query A \x7b ...F \x7d fragment F on T \x7b f \x7d").getD []

/-- Under a namespace without slashes a document is added to the store. -/
theorem add_hides_nothing_of_plain :
    ∃ w' report, Reaches (addLine "x") (addGiven "x") ∧
      run newProject documentInput (addLine "x") = (w', report) ∧ report.ending.status = 0 ∧
      ∃ s, settingsHere newProject = .ok s ∧ ∃ c : Record, c.ns = "x" ∧
        report.output = (Shelf.ofPath s.store.toText).recordPath c ++ [.char '\n'] ∧
        Path.IsChild (Shelf.ofPath s.store.toText).queries
          ((Shelf.ofPath s.store.toText).recordPath c) := by
  have reaches : Reaches (addLine "x") (addGiven "x") :=
    ⟨⟨⟨[], addLine "x"⟩, _, except_ok (by decide +kernel), rfl, rfl,
      except_ok (by decide +kernel)⟩, by decide +kernel⟩
  have well : (run newProject documentInput (addLine "x")).2.ending.status = 0 := by decide +kernel
  obtain ⟨s, sub, settings, -, submits, added⟩ :=
    add_hides_nothing reaches (Prod.eta _).symm well
  have plain : Path.LeadsInto (Shelf.ofPath s.store.toText).queries sub.ns := by
    rw [submits.ns]
    exact .inl (by decide +kernel)
  refine ⟨_, _, reaches, (Prod.eta _).symm, well, s, settings, ?_⟩
  obtain ⟨-, closed, -, -, r, c, added⟩ | ⟨-, closed, -, -, r, c, added⟩ := added
  · exact ⟨c, added.ns.trans submits.ns, added.output, added.saved.inQueries.mpr (added.ns ▸ plain)⟩
  · exact ⟨c, added.ns.trans submits.ns, added.output, added.saved.inQueries.mpr (added.ns ▸ plain)⟩

/-- A namespace that leads out of the store takes the record and the fragment with it. The line ends
    well all the same, and no file is in the store. -/
theorem added_outside :
    ∃ w' report, run newProject documentInput (addLine "../../../out") = (w', report) ∧
      report.ending.status = 0 ∧
      report.output = "/p/.allowlist/queries/../../../out.A.yaml\n" ∧
      (settingsHere newProject).toOption.map (·.store.toText) = some "/p/.allowlist" ∧
      w'.disk.files.map (·.1) =
        ([["p", "allowlist.toml"], ["out.A.yaml"], ["out.F"]] : List (List Text)) ∧
      Files.filesIn w'.disk "/p/.allowlist/queries" = [] ∧
      Files.filesIn w'.disk "/p/.allowlist/fragments" = [] :=
  ⟨_, _, (Prod.eta _).symm, by decide +kernel⟩

end Command

end ApprovedOps
