import Mathlib.Data.List.Induction
import ApprovedOps.Proofs.Yaml.Quoted

/-! # Plain scalars

A plain scalar consists of words with spaces between them, where a single space may have become a
line break with an indentation. It is read as itself, up to the next line, which must begin further
to the left.
-/

namespace ApprovedOps.Yaml

open Cursor

/-- The document goes on in a column: with spaces up to it, and then with what is neither a blank
    nor a comment, or not at all. -/
def Resumes (column : Nat) (r : Text) : Prop :=
  ∃ s, r = spaces column ++ s ∧ ∀ p ∈ s.head?, isBlank p = false ∧ p ≠ .char '#'

namespace Scalar

variable {indent parent k n : Nat} {c e : Cursor} {p q : CodePoint} {s t r w x : Text}

/-- A word of a plain scalar: it has no blanks, does not begin like a comment and does not end like
    a key. -/
structure Word (w : Text) : Prop where
  /-- It is not empty. -/
  some_ : w ≠ []
  /-- There are no blanks and no byte order marks in it. -/
  shown : ∀ p ∈ w, isBlank p = false ∧ p ≠ .char '\uFEFF'
  /-- No colon ends it. -/
  colon : w.getLast? ≠ some (.char ':')
  /-- No number sign begins it. -/
  hash : w.head? ≠ some (.char '#')

theorem Word.inline (word : Word w) : Inline w :=
  fun p among => ⟨(isBlank_eq_false (word.shown p among).1).2, (word.shown p among).2⟩

/-- The ways to write a plain scalar. -/
inductive Folded (indent : Nat) : Text → Text → Prop
  /-- A word. -/
  | word {w : Text} : Word w → Folded indent w w
  /-- A word and spaces. -/
  | spaced {k : Nat} {w t x : Text} : Word w → Folded indent t x →
      Folded indent (w ++ spaces (k + 1) ++ t) (w ++ spaces (k + 1) ++ x)
  /-- A word and a space that has become a line break. -/
  | broken {w t x : Text} : Word w → Folded indent t x →
      Folded indent (w ++ [.char ' '] ++ t) (w ++ (.char '\n' :: spaces indent) ++ x)

/-! ## Runs and gaps -/

theorem plainRun_stop (ends : ∀ p ∈ r.head?, isBlank p = true) : plainRun false r = 0 := by
  cases r with
  | nil => rfl
  | cons p r => rw [plainRun, if_pos (ends p rfl)]

/-- A word is a run in front of what ends one. -/
theorem plainRun_word (shown : ∀ p ∈ w, isBlank p = false) (colon : w.getLast? ≠ some (.char ':'))
    (ends : plainRun false r = 0) : plainRun false (w ++ r) = w.length := by
  induction w with
  | nil => exact ends
  | cons p w ih =>
      obtain ⟨first, rest⟩ := List.forall_mem_cons.mp shown
      have inner : ¬(p = .char ':' ∧ (w ++ r).head?.all
          (fun q => isBlank q || (false && isOneOf ",[]\x7b\x7d" q)) = true) := by
        rintro ⟨rfl, blank⟩
        cases w with
        | nil => exact colon rfl
        | cons q w =>
            have := rest q List.mem_cons_self
            simp [this] at blank
      have last : w.getLast? ≠ some (.char ':') := by
        intro last
        rw [List.getLast?_cons, last] at colon
        exact colon rfl
      rw [List.cons_append, plainRun, if_neg (by rw [first]; simp), if_neg inner,
        if_neg (by simp), ih rest last, List.length_cons]

/-- Spaces in front of the next word. -/
theorem plainGap_spaces (here : c.rest = spaces k ++ q :: r) (shown : isBlank q = false) :
    plainGap c = ⟨spaces k, false, c.past (spaces k)⟩ := by
  obtain ⟨unblank, unbroken⟩ := isBlank_eq_false shown
  have other : isSpace q = false := (Bool.or_eq_false_iff.mp unblank).1
  have run : c.takeWhile isSpace = (spaces k, c.past (spaces k)) :=
    takeWhile_eq here (by simp [spaces, isSpace]) (by simpa using other)
  rw [plainGap, run]
  simp only [isAt_eq (past_rest here), unbroken, Bool.false_eq_true, if_false]

theorem plainBreaks_spaces (here : c.rest = spaces k ++ r)
    (shown : ∀ p ∈ r.head?, isBlank p = false) :
    plainBreaks (n + 1) c = (some [], c.past (spaces k)) := by
  have skipped : c.skipWhile isSpace = c.past (spaces k) := by
    refine skipWhile_eq here (by simp [spaces, isSpace]) ?_
    cases r with
    | nil => rfl
    | cons p r =>
        have := (isBlank_eq_false (shown p rfl)).1
        exact (Bool.or_eq_false_iff.mp this).1
  have after : (c.past (spaces k)).isAt isBreak = false := by
    have rest := past_rest here
    cases r with
    | nil => exact isAt_nil rest isBreak
    | cons p r => exact (isAt_eq rest isBreak).trans (isBlank_eq_false (shown p rfl)).2
  rw [plainBreaks]
  simp only [skipped, after, Bool.false_eq_true, if_false]

/-- A line break, up to the column in which the document goes on. If a document begins or ends
    there, the gap says nothing. -/
theorem plainGap_break (here : c.rest = .char '\n' :: r) (resumes : Resumes k r) :
    plainGap c =
      if (c.past [.char '\n']).isAtSeparator then ⟨[], true, c.past [.char '\n']⟩
      else ⟨[.char ' '], true, c.past (.char '\n' :: spaces k)⟩ := by
  obtain ⟨s, rfl, shown⟩ := resumes
  have run : c.takeWhile isSpace = ([], c) := takeWhile_eq (t := []) here (by simp) (by simp [isSpace])
  have break_ : isBreak (.char '\n') = true := by decide
  have breaks : plainBreaks ((c.past [.char '\n']).rest.length + 1) (c.past [.char '\n']) =
      (some [], (c.past [.char '\n']).past (spaces k)) :=
    plainBreaks_spaces (past_rest (t := [_]) here) fun p head => (shown p head).1
  rw [plainGap, run]
  simp only [isAt_eq here, break_, if_true, lineBreak_eq here break_ (by decide)]
  split
  · rfl
  · rw [breaks]
    rfl

/-! ## Words in turn -/

theorem plainFrom_word {parent : Int} {gap : Text} {broken : Bool} (word : Word w)
    (here : c.rest = w ++ x) (ends : plainRun false x = 0) :
    plainFrom false parent (n + 1) gap broken c =
      let next := plainGap (c.past w)
      if next.text = [] || next.stop.isAtChar '#' || (!false && next.stop.column < parent + 1)
      then (gap ++ w, next.broken, next.stop)
      else
        let rest := plainFrom false parent n next.text next.broken next.stop
        (gap ++ w ++ rest.1, rest.2.1, rest.2.2) := by
  obtain ⟨p, w', rfl⟩ := List.exists_cons_of_ne_nil word.some_
  have hash : c.isAtChar '#' = false := by
    rw [isAtChar_eq here]
    simpa using word.hash
  have run : plainRun false c.rest = (p :: w').length := by
    rw [here]
    exact plainRun_word (fun p among => (word.shown p among).1) word.colon ends
  have taken : c.rest.take (p :: w').length = p :: w' := by
    rw [here, List.take_left]
  have long : (p :: w').length ≠ 0 := Nat.succ_ne_zero _
  rw [plainFrom, hash, if_neg Bool.false_ne_true, run]
  simp only [if_neg long, taken]
  rfl

/-- What is written begins with neither a blank nor a mark of a comment. -/
theorem Folded.head (h : Folded indent t x) :
    ∃ p y, x = p :: y ∧ isBlank p = false ∧ p ≠ .char '#' := by
  have front (w r : Text) (word : Word w) :
      ∃ p y, w ++ r = p :: y ∧ isBlank p = false ∧ p ≠ .char '#' := by
    obtain ⟨p, w, rfl⟩ := List.exists_cons_of_ne_nil word.some_
    exact ⟨p, _, rfl, (word.shown p List.mem_cons_self).1, by simpa using word.hash⟩
  cases h with
  | word word => simpa using front _ [] word
  | spaced word _ =>
      rw [List.append_assoc]
      exact front _ _ word
  | broken word _ =>
      rw [List.append_assoc]
      exact front _ _ word

/-- A word with a gap behind it, after which the scalar goes on. -/
theorem plainFrom_goes {gap g y : Text} {broken b : Bool} {stop : Cursor} (word : Word w)
    (here : c.rest = w ++ y) (enough : c.rest.length < n) (ends : ∀ p ∈ y.head?, isBlank p = true)
    (between : plainGap (c.past w) = ⟨g, b, e⟩) (said : g ≠ [])
    (after : e.rest = p :: r) (hash : p ≠ .char '#') (column : parent < e.column)
    (shorter : e.rest.length < c.rest.length)
    (read : ∀ n, e.rest.length < n → plainFrom false parent n g b e = (g ++ t, true, stop)) :
    plainFrom false parent n gap broken c = (gap ++ (w ++ g ++ t), true, stop) := by
  cases n with
  | zero => cases enough
  | succ n =>
      have goes : e.isAtChar '#' = false := by
        rw [isAtChar_eq after]
        simpa using hash
      have far : ¬(e.column : Int) < parent + 1 := by omega
      rw [plainFrom_word word here (plainRun_stop ends), between]
      simp [said, goes, far, read n (by omega)]

/-- However a plain scalar is written, it is read as itself, with the line break after it and
    possibly the spaces at the beginning of the next line. -/
theorem Folded.read (h : Folded indent t x) (deep : parent < indent)
    (here : c.rest = x ++ .char '\n' :: r) (inside : parent < c.column) (resumes : Resumes k r)
    (left : k ≤ parent) :
    ∃ stop, (stop = c.past (x ++ [.char '\n']) ∨ stop = c.past (x ++ .char '\n' :: spaces k)) ∧
      ∀ n gap broken, c.rest.length < n →
        plainFrom false parent n gap broken c = (gap ++ t, true, stop) := by
  induction h generalizing c with
  | @word w word =>
      have next : (c.past w).rest = .char '\n' :: r := past_rest here
      have ends : ∀ p ∈ (CodePoint.char '\n' :: r).head?, isBlank p = true := by
        intro p head
        cases head
        decide
      obtain ⟨s, rfl, shown⟩ := id resumes
      have column : ((c.past w).past (.char '\n' :: spaces k)).column = k :=
        past_newline next (by decide) (by decide)
      have tooShallow : (((c.past w).past (.char '\n' :: spaces k)).column : Int) < parent + 1 := by
        omega
      rw [past_append, past_append]
      by_cases separator : ((c.past w).past [.char '\n']).isAtSeparator = true
      · refine ⟨_, .inl rfl, fun n gap broken enough => ?_⟩
        cases n with
        | zero => cases enough
        | succ n =>
            rw [plainFrom_word word here (plainRun_stop ends), plainGap_break next resumes, if_pos separator]
            rfl
      · refine ⟨_, .inr rfl, fun n gap broken enough => ?_⟩
        cases n with
        | zero => cases enough
        | succ n =>
            rw [plainFrom_word word here (plainRun_stop ends), plainGap_break next resumes, if_neg separator]
            simp [tooShallow]
  | @spaced j w t x word rest ih =>
      rw [List.append_assoc, List.append_assoc] at here
      have next : (c.past w).rest = spaces (j + 1) ++ (x ++ .char '\n' :: r) := past_rest here
      have after := past_rest next
      have column : parent < ((c.past w).past (spaces (j + 1))).column := by
        have := (past_inline here word.inline).1
        have := past_spaces next
        omega
      have ends : ∀ p ∈ (spaces (j + 1) ++ (x ++ .char '\n' :: r)).head?, isBlank p = true := by
        intro p head
        cases head
        decide
      have shorter : ((c.past w).past (spaces (j + 1))).rest.length < c.rest.length :=
        Nat.lt_trans (past_shorter next (List.cons_ne_nil _ _)) (past_shorter here word.some_)
      obtain ⟨p, y, rfl, shown, hash⟩ := rest.head
      obtain ⟨stop, place, read⟩ := ih after column
      exact ⟨stop, by simpa only [List.append_assoc, past_append] using place,
        fun n gap broken enough => plainFrom_goes word here enough ends
          (plainGap_spaces next shown) (List.cons_ne_nil _ _) after hash column shorter
          fun n enough => read n _ _ enough⟩
  | @broken w t x word rest ih =>
      rw [List.append_assoc, List.append_assoc] at here
      have next : (c.past w).rest = .char '\n' :: (spaces indent ++ (x ++ .char '\n' :: r)) :=
        past_rest here
      have after : ((c.past w).past (.char '\n' :: spaces indent)).rest = x ++ .char '\n' :: r :=
        past_rest next
      have column : parent < ((c.past w).past (.char '\n' :: spaces indent)).column := by
        rw [past_newline next (by decide) (by decide)]
        exact deep
      have ends : ∀ p ∈ (CodePoint.char '\n' :: (spaces indent ++ (x ++ .char '\n' :: r))).head?,
          isBlank p = true := by
        intro p head
        cases head
        decide
      have shorter : ((c.past w).past (.char '\n' :: spaces indent)).rest.length < c.rest.length :=
        Nat.lt_trans (past_shorter next (List.cons_ne_nil _ _)) (past_shorter here word.some_)
      obtain ⟨p, y, rfl, shown, hash⟩ := rest.head
      have resumes_ : Resumes indent (spaces indent ++ (p :: y ++ .char '\n' :: r)) := by
        refine ⟨_, rfl, ?_⟩
        rintro q ⟨⟩
        exact ⟨shown, hash⟩
      have apart : ((c.past w).past [.char '\n']).isAtSeparator = false := by
        obtain ⟨m, rfl⟩ := Nat.exists_eq_add_of_lt (Nat.zero_lt_of_lt deep)
        exact separator_none (past_rest (t := [_]) next) (by decide) (by decide)
      have between := plainGap_break next resumes_
      rw [apart, if_neg Bool.false_ne_true] at between
      obtain ⟨stop, place, read⟩ := ih after column
      exact ⟨stop, by simpa only [List.append_assoc, past_append] using place,
        fun n gap broken enough => plainFrom_goes word here enough ends between
          (List.cons_ne_nil _ _) after hash column shorter fun n enough => read n _ _ enough⟩

end Scalar

/-! ## What is written -/

namespace Layout

open Scalar

variable {indent column : Nat} {p q : CodePoint} {s t r w : Text}

theorem inner_colon {a b : Text} (h : hasInnerIndicator p r = false)
    (split : r = a ++ .char ':' :: b) : b.head?.all endsWord = false := by
  induction r generalizing p a with
  | nil => simp at split
  | cons q r ih =>
      rw [hasInnerIndicator, Bool.or_eq_false_iff, Bool.or_eq_false_iff] at h
      cases a with
      | nil =>
          obtain ⟨rfl, rfl⟩ := List.cons.inj split
          simpa using h.1.1
      | cons x a => exact ih h.2 (List.cons.inj split).2

theorem inner_hash {a b : Text} (h : hasInnerIndicator p r = false)
    (split : p :: r = a ++ q :: .char '#' :: b) : endsWord q = false := by
  induction r generalizing p a with
  | nil =>
      have := congrArg List.length split
      simp only [List.length_cons, List.length_nil, List.length_append] at this
      omega
  | cons x r ih =>
      rw [hasInnerIndicator, Bool.or_eq_false_iff, Bool.or_eq_false_iff] at h
      cases a with
      | nil =>
          obtain ⟨rfl, rest⟩ := List.cons.inj split
          obtain ⟨rfl, -⟩ := List.cons.inj rest
          simpa using h.1.2
      | cons y a => exact ih h.2 (List.cons.inj split).2

/-- A text on one line with no mark of a comment or a key in it. -/
structure Unmarked (t : Text) : Prop where
  /-- Nothing has to be escaped. -/
  writable : ∀ p ∈ t, isWritable p = true
  /-- It is on one line. -/
  unbroken : ∀ p ∈ t, isBreak p = false
  /-- No space ends it. -/
  last : ∀ p ∈ t.getLast?, isSpace p = false
  /-- No number sign begins it. -/
  hash : t.head? ≠ some (.char '#')
  /-- No word ends with a colon. -/
  colon : ∀ a b, t = a ++ .char ':' :: b → b.head?.all endsWord = false
  /-- No later word begins with a number sign. -/
  comment : ∀ a q b, t = a ++ q :: .char '#' :: b → endsWord q = false

theorem unmarked_of_allowed (h : allowsPlain t = true) :
    Unmarked t ∧ ∀ p ∈ t.head?, isSpace p = false := by
  have unbroken := unbroken_of_plain h
  simp only [allowsPlain, needsEscapes, Bool.and_eq_true, Bool.not_eq_true', Bool.or_eq_false_iff,
    List.any_eq_false, Bool.not_eq_false] at h
  obtain ⟨⟨⟨⟨⟨⟨some_, writable, -⟩, -⟩, first⟩, last⟩, marks⟩, -⟩ := h
  cases t with
  | nil => cases some_
  | cons p r =>
      rw [hasIndicator] at marks
      simp only [Bool.or_eq_false_iff, startsIndicator] at marks
      obtain ⟨⟨⟨⟨starts, starts'⟩, inner⟩, -⟩, -⟩ := marks
      refine ⟨⟨fun p among => by simpa using writable p among, unbroken, ?_, ?_, ?_, ?_⟩, ?_⟩
      · intro q head
        rw [head] at last
        exact last
      · intro head
        obtain rfl : p = .char '#' := Option.some.inj head
        exact absurd starts (by decide)
      · intro a b split
        cases a with
        | nil =>
            obtain ⟨rfl, rfl⟩ := List.cons.inj split
            simpa [isOneOf] using starts'
        | cons x a => exact inner_colon inner (List.cons.inj split).2
      · intro a q b split
        exact inner_hash inner split
      · rintro q ⟨⟩
        simpa using first

/-- What follows a space is another such text. -/
theorem Unmarked.behind (h : Unmarked (s ++ .char ' ' :: t)) (some_ : t ≠ []) : Unmarked t := by
  have sub (p : CodePoint) (among : p ∈ t) : p ∈ s ++ .char ' ' :: t :=
    List.mem_append_right s (List.mem_cons_of_mem _ among)
  refine ⟨fun p among => h.writable p (sub p among), fun p among => h.unbroken p (sub p among),
    fun p last => h.last p ?_, ?_, fun a b split => h.colon (s ++ .char ' ' :: a) b (by simp [split]),
    fun a q b split => h.comment (s ++ .char ' ' :: a) q b (by simp [split])⟩
  · obtain ⟨q, t, rfl⟩ := List.exists_cons_of_ne_nil some_
    rw [List.getLast?_append, List.getLast?_cons_cons, last]
    rfl
  · intro head
    obtain ⟨t, rfl⟩ := List.head?_eq_some_iff.mp head
    exact absurd (h.comment s (.char ' ') t rfl) (by decide)

/-- A run without spaces is a word. -/
theorem Unmarked.word (h : Unmarked (w ++ t)) (some_ : w ≠ [])
    (spaceless : ∀ p ∈ w, isSpace p = false) (ends : ∀ p ∈ t.head?, isSpace p = true) : Word w := by
  refine ⟨some_, fun p among => ?_, fun last => ?_, fun head => h.hash ?_⟩
  · have member := List.mem_append_left t among
    have writable := h.writable p member
    have space : p ≠ .char ' ' := by simpa [isSpace] using spaceless p among
    refine ⟨?_, (writable_ne writable).2.2⟩
    simp [Cursor.isBlank, Cursor.isSpaceOrTab, space, (writable_ne writable).2.1,
      isBreak_writable writable, h.unbroken p member]
  · obtain ⟨a, rfl⟩ := List.getLast?_eq_some_iff.mp last
    have := h.colon a t (by simp)
    cases t with
    | nil => cases this
    | cons q t =>
        have space := ends q rfl
        rw [List.head?_cons, Option.all_some, endsWord, space] at this
        cases this
  · rw [List.head?_append, head]
    rfl

theorem eq_spaces (some_ : s ≠ []) (all : ∀ p ∈ s, isSpace p = true) : ∃ k, s = spaces (k + 1) := by
  obtain ⟨p, s, rfl⟩ := List.exists_cons_of_ne_nil some_
  exact ⟨s.length, List.eq_replicate_iff.mpr
    ⟨rfl, fun q among => by simpa [isSpace] using all q among⟩⟩

theorem spaces_succ (k : Nat) : spaces (k + 1) = spaces k ++ [.char ' '] :=
  List.replicate_succ'

/-- A run that is no space is written as it is. -/
theorem foldPlain_word {ps : List Text} (spaceless : ∀ p ∈ w, isSpace p = false) :
    foldPlain indent column (w :: ps) = w ++ foldPlain indent (column + w.length) ps := by
  rw [foldPlain, if_neg]
  rintro ⟨rfl, -⟩
  exact absurd (spaceless _ List.mem_cons_self) (by decide)

/-- The runs of such a text are written as one of the ways to write it. -/
theorem foldPlain_folded {ps : List Text} (h : Divided isSpace t ps) (unmarked : Unmarked t)
    (some_ : t ≠ []) (first : ∀ p ∈ t.head?, isSpace p = false) :
    Folded indent t (foldPlain indent column ps) := by
  induction ps using List.twoStepInduction generalizing t column with
  | nil =>
      cases h
      exact absurd rfl some_
  | singleton w =>
      cases h with
      | @cons k _ u _ nonempty all ends rest =>
          cases rest
          obtain ⟨p, w, rfl⟩ := List.exists_cons_of_ne_nil nonempty
          obtain rfl : false = k := (first p rfl).symm.trans (all p List.mem_cons_self)
          have word := unmarked.word nonempty all (by simp)
          rw [foldPlain_word all, foldPlain]
          simpa using Folded.word word
  | cons_cons w s ps ih _ =>
      cases h with
      | @cons k _ u _ nonempty all ends rest =>
          obtain ⟨p, w, rfl⟩ := List.exists_cons_of_ne_nil nonempty
          obtain rfl : false = k := (first p rfl).symm.trans (all p List.mem_cons_self)
          have word := unmarked.word nonempty all (by simpa using ends)
          rw [foldPlain_word all]
          cases rest with
          | @cons k _ u _ nonempty' all' ends' rest' =>
              have blank : k = true := by
                obtain ⟨q, s, rfl⟩ := List.exists_cons_of_ne_nil nonempty'
                rw [← all' q List.mem_cons_self]
                simpa using ends q rfl
              subst blank
              obtain ⟨j, rfl⟩ := eq_spaces nonempty' all'
              have more : u ≠ [] := by
                rintro rfl
                have last : (p :: w ++ (spaces (j + 1) ++ [])).getLast? = some (.char ' ') := by
                  rw [List.append_nil, spaces_succ, ← List.append_assoc]
                  exact List.getLast?_concat
                cases unmarked.last _ last
              have behind : Unmarked u := by
                rw [spaces_succ] at unmarked
                exact Unmarked.behind (s := p :: w ++ spaces j) (by simpa using unmarked) more
              have next (column : Nat) : Folded indent u (foldPlain indent column ps) :=
                ih rest' behind more (by simpa using ends')
              rw [foldPlain]
              split
              · next broken =>
                  rw [broken.1]
                  simpa only [List.append_assoc, newline, spaces] using
                    Folded.broken word (next indent)
              · simpa only [List.append_assoc] using Folded.spaced word (next _)

end Layout

end ApprovedOps.Yaml
