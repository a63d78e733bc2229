import ApprovedOps.Proofs.GraphQL.Consumption
import ApprovedOps.Proofs.GraphQL.Words

/-! # Words that are read

What a reader makes of the words in front of it, whatever comes after them. For the readers that
other readers are made of.
-/

namespace ApprovedOps

namespace GraphQL

open Reader (mark)

/-- What a reader sees of a token. -/
def Token.word (t : Token) : Word :=
  (t.kind, t.value)

/-- What a reader sees of a place in a text. -/
def Lexed.word? : Lexed → Option Word
  | .token t => some t.word
  | .broken _ => none

/-- Does the stream show these words, and then no more? -/
def Stream.Shows (s : Stream) (ws : List Word) : Prop :=
  s.lexed.map Lexed.word? = ws.map some

variable {α β : Type} {s : Stream} {w : Word} {ws us rest : List Word}

theorem Stream.Shows.current (h : s.Shows (w :: ws)) : s.current.word = w :=
  Option.some.inj (List.cons.inj h).1

theorem Stream.Shows.head? (h : s.Shows ws) : ws.head? = some s.current.word := by
  cases ws with
  | nil => cases h
  | cons w ws => rw [h.current]; rfl

theorem Stream.Shows.length (h : s.Shows ws) : s.rest.length + 1 = ws.length := by
  have same := congrArg List.length h
  simpa [Stream.lexed] using same

/-- Taking a token that is not the last leaves the others. -/
theorem Stream.Shows.advance (h : s.Shows (w :: ws)) (more : ws ≠ []) :
    ∃ s', Reader.advance s = .ok ((), s') ∧ s'.Shows ws := by
  obtain ⟨t, lexed⟩ := s
  obtain ⟨w', ws, rfl⟩ := List.exists_cons_of_ne_nil more
  have after := (List.cons.inj h).2
  match lexed with
  | [] => cases after
  | .broken e :: lexed => cases (List.cons.inj after).1
  | .token t' :: lexed => exact ⟨⟨t', lexed⟩, rfl, after⟩

/-- Does the reader take these words and return this, in front of what `next` holds of? -/
def Reads (r : Reader α) (ws : List Word) (x : α) (next : List Word → Prop) : Prop :=
  ∀ ⦃s : Stream⦄ ⦃rest : List Word⦄, s.Shows (ws ++ rest) → rest ≠ [] → next rest →
    ∃ s', r s = .ok (x, s') ∧ s'.Shows rest

/-- Nothing is asked of what comes next. -/
def Anything (_ : List Word) : Prop := True

/-- What comes next is none of these marks. -/
def Avoids (marks : List Char) (rest : List Word) : Prop :=
  ∀ c ∈ marks, ∀ w ∈ rest.head?, w.1 ≠ mark c

namespace Avoids

variable {marks fewer : List Char}

theorem mono (h : Avoids marks rest) (sub : fewer ⊆ marks) : Avoids fewer rest :=
  fun c among => h c (sub among)

theorem nil : Avoids marks [] :=
  nofun

theorem cons (h : ∀ c ∈ marks, w.1 ≠ mark c) : Avoids marks (w :: rest) := by
  rintro c among w (rfl | ⟨⟩)
  exact h c among

theorem append (here : Avoids marks ws) (later : Avoids marks rest) :
    Avoids marks (ws ++ rest) := by
  cases ws with
  | nil => exact later
  | cons w ws => exact here

theorem name {n : Text} : Avoids marks (.name n :: rest) :=
  cons fun _ _ => nofun

theorem mark {c : Char} (other : c ∉ marks) : Avoids marks (.mark c :: rest) := by
  refine cons fun d among same => other ?_
  cases same
  exact among

end Avoids

/-! ## Steps -/

variable {r : Reader α} {f : α → Reader β} {x : α} {y : β} {P Q : List Word → Prop}

theorem reads_mono (h : Reads r ws x P) (weaker : ∀ rest, Q rest → P rest) : Reads r ws x Q :=
  fun _ _ shows_ more next => h shows_ more (weaker _ next)

theorem reads_anywhere (h : Reads r ws x Anything) : Reads r ws x Q :=
  reads_mono h fun _ _ => trivial

theorem reads_pure (x : α) : Reads (pure x) [] x Q :=
  fun s _ shows_ _ _ => ⟨s, rfl, shows_⟩

/-- One reader after the other takes what they take, one after the other. -/
theorem reads_bind (first : Reads r ws x P) (second : Reads (f x) us y Q)
    (next : ∀ rest, Q rest → P (us ++ rest)) : Reads (r >>= f) (ws ++ us) y Q := by
  intro s rest shows_ more follows
  rw [List.append_assoc] at shows_
  have some_ : us ++ rest ≠ [] := fun h => more (List.append_eq_nil_iff.mp h).2
  obtain ⟨s₁, read₁, shows₁⟩ := first shows_ some_ (next rest follows)
  obtain ⟨s₂, read₂, shows₂⟩ := second shows₁ more follows
  exact ⟨s₂, by simp only [bind, StateT.bind, read₁, Except.bind]; exact read₂, shows₂⟩

theorem reads_then (first : Reads r ws x Anything) (second : Reads (f x) us y Q) :
    Reads (r >>= f) (ws ++ us) y Q :=
  reads_bind first second fun _ _ => trivial

theorem reads_next (first : Reads r [w] x Anything) (second : Reads (f x) us y Q) :
    Reads (r >>= f) (w :: us) y Q :=
  reads_then first second

theorem reads_return {f : α → Reader β} (h : Reads r ws x P) (returns : f x = pure y) :
    Reads (r >>= f) ws y P := by
  intro s rest shows_ more next
  obtain ⟨s', read, shows'⟩ := h shows_ more next
  exact ⟨s', by simp only [bind, StateT.bind, read, Except.bind, returns]; rfl, shows'⟩

theorem reads_map (h : Reads r ws x P) (f : α → β) : Reads (r >>= fun x => pure (f x)) ws (f x) P :=
  reads_return h rfl

theorem reads_congr (h : Reads r ws x P) (same : ws = us) : Reads r us x P :=
  same ▸ h

/-- Whoever looks at a token sees the first word. -/
theorem reads_look {f : Token → Reader β}
    (h : ∀ t rest, (ws ++ rest).head? = some t.word → Q rest → Reads (f t) ws y Q) :
    Reads (Reader.current >>= f) ws y Q := by
  intro s rest shows_ more next
  exact h s.current rest shows_.head? next shows_ more next

theorem reads_current {f : Token → Reader β}
    (h : ∀ t, t.word = w → Reads (f t) (w :: ws) y Q) :
    Reads (Reader.current >>= f) (w :: ws) y Q :=
  reads_look fun t _ first _ => h t (Option.some.inj first).symm

theorem reads_advance : Reads Reader.advance [w] () Anything :=
  fun _ _ shows_ more _ => shows_.advance more

theorem reads_advanced {f : Unit → Reader β} (h : Reads (f ()) us y Q) :
    Reads (Reader.advance >>= f) (w :: us) y Q :=
  reads_then reads_advance h

theorem reads_bound {f : Nat → Reader β} (h : ∀ n, ws.length < n → Reads (f n) ws y Q) :
    Reads (Reader.bound >>= f) ws y Q := by
  intro s rest shows_ more next
  have long : ws.length < s.rest.length + 1 := by
    rw [shows_.length, List.length_append]
    exact Nat.lt_add_of_pos_right (List.length_pos_iff.mpr more)
  exact h _ long shows_ more next

theorem reads_lookahead {f : Token → Reader β} {v : Word}
    (h : ∀ t, t.word = v → Reads (f t) (w :: v :: us) y Q) :
    Reads (Reader.lookahead >>= f) (w :: v :: us) y Q := by
  intro s rest shows_ more next
  obtain ⟨t, lexed⟩ := s
  have after := (List.cons.inj shows_).2
  match lexed with
  | .broken e :: lexed => cases (List.cons.inj after).1
  | .token t' :: lexed => exact h t' (Option.some.inj (List.cons.inj after).1) shows_ more next

/-! ## Single words -/

theorem reads_expect {kind : TokenKind} {v : Text} {f : Token → Reader β}
    (h : ∀ t, t.value = v → Reads (f t) us y Q) :
    Reads (Reader.expect kind >>= f) ((kind, v) :: us) y Q := by
  intro s rest shows_ more next
  have same := Prod.mk.inj shows_.current
  obtain ⟨s₁, advanced, shows₁⟩ := shows_.advance fun h => more (List.append_eq_nil_iff.mp h).2
  obtain ⟨s₂, read, shows₂⟩ := h s.current same.2 shows₁ more next
  refine ⟨s₂, ?_, shows₂⟩
  have taken : Reader.expect kind s = .ok (s.current, s₁) := by
    rw [Reader.expect, current_bind, if_pos same.1]
    simp only [bind, StateT.bind, advanced, Except.bind]
    rfl
  simp only [bind, StateT.bind, taken, Except.bind]
  exact read

theorem reads_mark {c : Char} {f : Token → Reader β} (h : ∀ t, Reads (f t) us y Q) :
    Reads (Reader.expect (mark c) >>= f) (.mark c :: us) y Q :=
  reads_expect fun t _ => h t

theorem reads_name {n : Text} : Reads Reader.name [.name n] n Anything :=
  reads_expect fun _ same => same ▸ reads_pure _

theorem reads_named {n : Text} {f : Text → Reader β} (h : Reads (f n) us y Q) :
    Reads (Reader.name >>= f) (.name n :: us) y Q :=
  reads_then reads_name h

/-- Taking a token that is as it has to be, and else nothing, goes on after it or in front of it. -/
theorem taking_run (p : Token → Prop) [DecidablePred p] {f : Bool → Reader β} (s : Stream) :
    ((Reader.current >>= fun t =>
        if p t then Reader.advance >>= fun _ => pure true else pure false) >>= f) s =
      if p s.current then (Reader.advance >>= fun _ => f true) s else f false s := by
  have run (g : Token → Reader Bool) :
      ((Reader.current >>= g) >>= f) s = (g s.current >>= f) s := rfl
  rw [run]
  split
  next => simp only [bind_assoc, pure_bind]
  next => rw [pure_bind]

theorem takes_run {kind : TokenKind} {f : Bool → Reader β} (s : Stream) :
    (Reader.takes kind >>= f) s =
      if s.current.kind = kind then (Reader.advance >>= fun _ => f true) s else f false s :=
  taking_run (fun t => t.kind = kind) s

theorem reads_takes {kind : TokenKind} {v : Text} {f : Bool → Reader β}
    (h : Reads (f true) us y Q) : Reads (Reader.takes kind >>= f) ((kind, v) :: us) y Q := by
  intro s rest shows_ more next
  rw [takes_run, if_pos (Prod.mk.inj shows_.current).1]
  exact reads_advanced (f := fun _ => f true) h shows_ more next

theorem reads_skips {c : Char} {f : Bool → Reader β} (h : Reads (f false) us y Q)
    (other : ∀ rest, Q rest → Avoids [c] (us ++ rest)) :
    Reads (Reader.takes (mark c) >>= f) us y Q := by
  intro s rest shows_ more next
  have differs : ¬s.current.kind = mark c :=
    other rest next c List.mem_cons_self s.current.word shows_.head?
  rw [takes_run, if_neg differs]
  exact h shows_ more next

theorem reads_isAt {kind : TokenKind} {v : Text} {f : Bool → Reader β}
    (h : Reads (f true) ((kind, v) :: us) y Q) :
    Reads (Reader.isAt kind >>= f) ((kind, v) :: us) y Q := by
  intro s rest shows_ more next
  have here : s.current.kind = kind := (Prod.mk.inj shows_.current).1
  have run : (Reader.isAt kind >>= f) s = f (s.current.kind = kind) s := rfl
  rw [run, decide_eq_true here]
  exact h shows_ more next

theorem reads_notAt {kind : TokenKind} {f : Bool → Reader β} (h : Reads (f false) us y Q)
    (other : ∀ rest, Q rest → ∀ w ∈ (us ++ rest).head?, w.1 ≠ kind) :
    Reads (Reader.isAt kind >>= f) us y Q := by
  intro s rest shows_ more next
  have differs : ¬s.current.kind = kind := other rest next s.current.word shows_.head?
  have run : (Reader.isAt kind >>= f) s = f (s.current.kind = kind) s := rfl
  rw [run, decide_eq_false differs]
  exact h shows_ more next

theorem isWord_word {word : String} {t : Token} :
    Reader.isWord word t = true ↔ t.word = .name word := by
  rw [Reader.isWord, Bool.and_eq_true, decide_eq_true_eq, decide_eq_true_eq]
  exact Prod.mk.injEq .. ▸ Iff.rfl

theorem takesWord_run {word : String} {f : Bool → Reader β} (s : Stream) :
    (Reader.takesWord word >>= f) s =
      if Reader.isWord word s.current then (Reader.advance >>= fun _ => f true) s
      else f false s :=
  taking_run (fun t => Reader.isWord word t = true) s

theorem reads_takesWord {word : String} {f : Bool → Reader β} (h : Reads (f true) us y Q) :
    Reads (Reader.takesWord word >>= f) (.name word :: us) y Q := by
  intro s rest shows_ more next
  rw [takesWord_run, if_pos (isWord_word.mpr shows_.current)]
  exact reads_advanced (f := fun _ => f true) h shows_ more next

theorem reads_skipsWord {word : String} {f : Bool → Reader β} (h : Reads (f false) us y Q)
    (other : ∀ rest, Q rest → (us ++ rest).head? ≠ some (.name word)) :
    Reads (Reader.takesWord word >>= f) us y Q := by
  intro s rest shows_ more next
  have differs : ¬Reader.isWord word s.current = true := fun here =>
    other rest next (shows_.head?.trans (congrArg some (isWord_word.mp here)))
  rw [takesWord_run, if_neg differs]
  exact h shows_ more next

theorem reads_expectWord {word : String} {f : Unit → Reader β} (h : Reads (f ()) us y Q) :
    Reads (Reader.expectWord word >>= f) (.name word :: us) y Q := by
  refine reads_next (reads_current fun t same => ?_) h
  rw [if_pos (isWord_word.mpr same)]
  exact reads_advance

/-! ## Items -/

section

variable {item : Reader α} {words : α → List Word} {xs : List α} {x : α} {marks : List Char}

/-- Do the words begin with one that is none of these marks? -/
def StartsOutside (marks : List Char) (ws : List Word) : Prop :=
  ws ≠ [] ∧ Avoids marks ws

theorem startsOutside_cons (h : ∀ c ∈ marks, w.1 ≠ mark c) : StartsOutside marks (w :: ws) :=
  ⟨List.cons_ne_nil w ws, .cons h⟩

theorem startsOutside_name {n : Text} : StartsOutside marks (.name n :: ws) :=
  startsOutside_cons fun _ _ => nofun

theorem startsOutside_dots : StartsOutside marks (.dots :: ws) :=
  startsOutside_cons fun _ _ same => by cases same

theorem startsOutside_mark {c : Char} (other : c ∉ marks) : StartsOutside marks (.mark c :: ws) :=
  ⟨List.cons_ne_nil _ ws, .mark other⟩

theorem StartsOutside.append (h : StartsOutside marks ws) : StartsOutside marks (ws ++ us) := by
  obtain ⟨w, ws, rfl⟩ := List.exists_cons_of_ne_nil h.1
  exact ⟨List.cons_ne_nil _ _, h.2⟩

theorem StartsOutside.avoids (h : StartsOutside marks ws) : Avoids marks (ws ++ us) :=
  h.append.2

theorem length_le_flatMap (xs : List α) (words : α → List Word) (begun : ∀ x ∈ xs, words x ≠ []) :
    xs.length ≤ (xs.flatMap words).length := by
  induction xs with
  | nil => exact Nat.le_refl 0
  | cons x xs ih =>
      obtain ⟨here, later⟩ := List.forall_mem_cons.mp begun
      have first := List.length_pos_iff.mpr here
      have others := ih later
      simp only [List.length_cons, List.flatMap_cons, List.length_append]
      omega

theorem avoids_items {close : Char} (closes : close ∉ marks)
    (begun : ∀ x ∈ xs, StartsOutside (close :: marks) (words x)) (us : List Word) :
    Avoids marks (xs.flatMap words ++ [.mark close] ++ us) := by
  cases xs with
  | nil => exact .mark closes
  | cons y ys =>
      rw [List.flatMap_cons, List.append_assoc, List.append_assoc]
      exact (begun y List.mem_cons_self).avoids.mono (List.subset_cons_self _ _)

/-- Items can be read up to a closing mark if each can be read in front of the next one's first word
    and in front of the mark. -/
theorem reads_itemsUntil {close : Char} {n : Nat} (long : xs.length < n) (closes : close ∉ marks)
    (each : ∀ x ∈ xs, Reads item (words x) x (Avoids marks))
    (begun : ∀ x ∈ xs, StartsOutside (close :: marks) (words x)) :
    Reads (Reader.itemsUntil close item n) (xs.flatMap words ++ [.mark close]) xs Anything := by
  induction xs generalizing n with
  | nil =>
      obtain ⟨n, rfl⟩ := Nat.exists_eq_succ_of_ne_zero (Nat.ne_of_gt long)
      exact reads_takes (reads_pure [])
  | cons x xs ih =>
      obtain ⟨n, rfl⟩ := Nat.exists_eq_succ_of_ne_zero (Nat.ne_of_gt (Nat.zero_lt_of_lt long))
      obtain ⟨here, later⟩ := List.forall_mem_cons.mp each
      obtain ⟨first, others⟩ := List.forall_mem_cons.mp begun
      have rest := ih (Nat.lt_of_succ_lt_succ long) later others
      rw [List.flatMap_cons, List.append_assoc]
      refine reads_skips
        (reads_bind here (reads_map rest (x :: ·)) fun us _ => avoids_items closes others us) ?_
      intro us _
      rw [List.append_assoc]
      exact first.avoids.mono (List.cons_subset_cons close (List.nil_subset marks))

theorem reads_any {opening close : Char} (closes : close ∉ marks)
    (each : ∀ x ∈ xs, Reads item (words x) x (Avoids marks))
    (begun : ∀ x ∈ xs, StartsOutside (close :: marks) (words x)) :
    Reads (Reader.any opening close item) (enclosed opening close (xs.flatMap words)) xs
      Anything := by
  refine reads_mark fun _ => reads_bound fun n long => reads_itemsUntil ?_ closes each begun
  have short := length_le_flatMap _ words fun x among => (begun x among).1
  rw [List.length_append] at long
  exact Nat.lt_of_le_of_lt (Nat.le_trans short (Nat.le_add_right _ _)) long

theorem reads_many {opening close : Char} (some_ : xs ≠ []) (closes : close ∉ marks)
    (each : ∀ x ∈ xs, Reads item (words x) x (Avoids marks))
    (begun : ∀ x ∈ xs, StartsOutside (close :: marks) (words x)) :
    Reads (Reader.many opening close item) (enclosed opening close (xs.flatMap words)) xs
      Anything := by
  obtain ⟨x, xs, rfl⟩ := List.exists_cons_of_ne_nil some_
  obtain ⟨here, later⟩ := List.forall_mem_cons.mp each
  obtain ⟨-, others⟩ := List.forall_mem_cons.mp begun
  rw [enclosed, List.flatMap_cons, List.append_assoc]
  refine reads_mark fun _ => reads_bind here (reads_bound fun n long => ?_) fun us _ =>
    avoids_items closes others us
  have short := length_le_flatMap _ words fun x among => (others x among).1
  rw [List.length_append] at long
  have bounded : xs.length < n :=
    Nat.lt_of_le_of_lt (Nat.le_trans short (Nat.le_add_right _ _)) long
  exact reads_map (reads_itemsUntil bounded closes later others) (x :: ·)

theorem reads_optionalMany {opening close : Char} (closes : close ∉ marks)
    (each : ∀ x ∈ xs, Reads item (words x) x (Avoids marks))
    (begun : ∀ x ∈ xs, StartsOutside (close :: marks) (words x)) :
    Reads (Reader.optionalMany opening close item) (optionally opening close (xs.flatMap words)) xs
      fun rest => xs = [] → Avoids [opening] rest := by
  cases xs with
  | nil => exact reads_notAt (reads_pure []) fun rest next => next rfl opening List.mem_cons_self
  | cons x xs =>
      have some_ : (x :: xs).flatMap words ≠ [] := by
        rw [List.flatMap_cons]
        exact (begun x List.mem_cons_self).append.1
      rw [optionally, if_neg some_]
      exact reads_isAt (reads_anywhere (reads_many (List.cons_ne_nil x xs) closes each begun))

theorem reads_itemsWhile {opening : Char} {n : Nat} (long : xs.length ≤ n) (other : opening ∉ marks)
    (each : ∀ x ∈ xs, Reads item (words x) x (Avoids marks))
    (begun : ∀ x ∈ xs, ∃ ws, words x = .mark opening :: ws) :
    Reads (Reader.itemsWhile opening item n) (xs.flatMap words) xs (Avoids (opening :: marks)) := by
  induction xs generalizing n with
  | nil =>
      cases n with
      | zero => exact reads_pure []
      | succ n => exact reads_notAt (reads_pure []) fun rest next => next opening List.mem_cons_self
  | cons x xs ih =>
      obtain ⟨n, rfl⟩ := Nat.exists_eq_succ_of_ne_zero (Nat.ne_of_gt (Nat.zero_lt_of_lt long))
      obtain ⟨here, later⟩ := List.forall_mem_cons.mp each
      obtain ⟨⟨ws, first⟩, others⟩ := List.forall_mem_cons.mp begun
      have rest := ih (Nat.le_of_succ_le_succ long) later others
      have next (us : List Word) (after : Avoids (opening :: marks) us) :
          Avoids marks (xs.flatMap words ++ us) := by
        cases xs with
        | nil => exact after.mono (List.subset_cons_self _ _)
        | cons y ys =>
            obtain ⟨vs, second⟩ := others y List.mem_cons_self
            rw [List.flatMap_cons, second]
            exact .mark other
      rw [List.flatMap_cons]
      have both : Reads
          (item >>= fun x => Reader.itemsWhile opening item n >>= fun xs => pure (x :: xs))
          (words x ++ xs.flatMap words) (x :: xs) (Avoids (opening :: marks)) :=
        reads_bind here (reads_map rest (x :: ·)) next
      rw [first] at both ⊢
      exact reads_isAt both

/-- Names that follow a first one, each after a mark, can be read to the last one. -/
theorem reads_furtherItems {delimiter : Char} {item : Reader Text} {ns : List Text} {n : Nat}
    (long : ns.length ≤ n) (each : ∀ m ∈ ns, Reads item [.name m] m Anything) :
    Reads (Reader.furtherItems delimiter item n)
      (ns.flatMap fun m => [.mark delimiter, .name m]) ns (Avoids [delimiter]) := by
  induction ns generalizing n with
  | nil =>
      cases n with
      | zero => exact reads_pure []
      | succ n => exact reads_skips (reads_pure []) fun rest next => next
  | cons m ns ih =>
      obtain ⟨n, rfl⟩ := Nat.exists_eq_succ_of_ne_zero (Nat.ne_of_gt (Nat.zero_lt_of_lt long))
      obtain ⟨here, later⟩ := List.forall_mem_cons.mp each
      have rest := ih (Nat.le_of_succ_le_succ long) later
      exact reads_takes (reads_then here (reads_map rest (m :: ·)))

theorem reads_delimited {delimiter : Char} {item : Reader Text} {ns : List Text} (some_ : ns ≠ [])
    (each : ∀ m ∈ ns, Reads item [.name m] m Anything) :
    Reads (Reader.delimited delimiter item) (delimitedWords delimiter ns) ns
      (Avoids [delimiter]) := by
  obtain ⟨m, ns, rfl⟩ := List.exists_cons_of_ne_nil some_
  obtain ⟨here, later⟩ := List.forall_mem_cons.mp each
  refine reads_skips ?_ fun _ _ => .name
  refine reads_then here (reads_bound fun n long =>
    reads_map (reads_furtherItems ?_ later) (m :: ·))
  have short := length_le_flatMap ns (fun m => [.mark delimiter, .name m]) fun _ _ =>
    List.cons_ne_nil _ _
  exact Nat.le_trans short (Nat.le_of_lt long)

end

end GraphQL

end ApprovedOps
