import ApprovedOps.Proofs.Document.Divided

/-! # Brackets of a region

Read again on its own, the text of a region has the lexemes that it has in the document. Its brackets
are all closed if none is open in the document where the region ends. That is so where another region
follows, since it is opened outside all brackets; where none follows nothing looks after it.
-/

namespace ApprovedOps

namespace Lexeme

/-- At a lexeme the reading goes on with it. -/
theorem scan_at {t s : Text} {k : Nat} {front ls : List Lexeme} {l : Lexeme}
    (place : t.drop k = s) (h : (scanWith Piece.of k s).1 = front ++ l :: ls) :
    (scanWith Piece.of l.start (t.drop l.start)).1 = l :: ls := by
  fun_induction scanWith Piece.of k s generalizing front with
  | case1 => simp at h
  | case2 k c r n found ih => exact ih (Parts.drop_past place n) h
  | case3 k c r kind n found rest failure split ih =>
      cases front with
      | nil =>
          obtain ⟨rfl, rfl⟩ := List.cons.inj h
          rw [place, scan_piece found, split]
      | cons first front =>
          rw [split] at ih
          exact ih (Parts.drop_past place n) (List.cons.inj h).2
  | case4 => simp at h

end Lexeme

namespace Parts

open Lexeme

/-! ## Brackets that are closed -/

/-- How many brackets are open after some lexemes if some are open before. -/
def depthFrom (depth : Nat) (ls : List Lexeme) : Nat :=
  ls.foldl (fun depth l =>
    if isOpening l then depth + 1 else if isClosing l then depth - 1 else depth) depth

/-- Is every bracket closed again? Behind it, at some place as many are closed as are opened. -/
def Closed (ls : List Lexeme) : Prop :=
  ∀ before l after, ls = before ++ l :: after → isOpening l = true →
    ∃ inside rest, after = inside ++ rest ∧ depthAfter (l :: inside) = 0

/-- Does every closing bracket close one of its kind? -/
def Matching (ls : List Lexeme) : Prop :=
  ls.foldlM nest [] ≠ none

/-- Do the brackets nest, each closed by one of its kind? -/
def Nested (ls : List Lexeme) : Prop :=
  ls.foldlM nest [] = some []

theorem depthAfter_split (before after : List Lexeme) :
    depthAfter (before ++ after) = depthFrom (depthAfter before) after :=
  List.foldl_append

theorem depthFrom_opening {l : Lexeme} (opening : isOpening l = true) (depth : Nat)
    (ls : List Lexeme) : depthFrom depth (l :: ls) = depthFrom (depth + 1) ls := by
  rw [depthFrom, List.foldl_cons, if_pos opening]
  rfl

theorem depthFrom_closing {l : Lexeme} (other : isOpening l = false) (closing : isClosing l = true)
    (depth : Nat) (ls : List Lexeme) : depthFrom depth (l :: ls) = depthFrom (depth - 1) ls := by
  rw [depthFrom, List.foldl_cons, other, if_neg Bool.false_ne_true, if_pos closing]
  rfl

theorem depthFrom_other {l : Lexeme} (other : isOpening l = false) (other' : isClosing l = false)
    (depth : Nat) (ls : List Lexeme) : depthFrom depth (l :: ls) = depthFrom depth ls := by
  rw [depthFrom, List.foldl_cons, other, other', if_neg Bool.false_ne_true,
    if_neg Bool.false_ne_true]
  rfl

/-- Is some bracket open at every place, if some are open before? -/
def StaysOpen (depth : Nat) (ls : List Lexeme) : Prop :=
  ∀ inside rest, ls = inside ++ rest → depthFrom depth inside ≠ 0

theorem StaysOpen.tail {depth depth' : Nat} {l : Lexeme} {ls : List Lexeme}
    (step : ∀ ls, depthFrom depth (l :: ls) = depthFrom depth' ls)
    (h : StaysOpen depth (l :: ls)) : StaysOpen depth' ls :=
  fun inside rest split => step inside ▸ h (l :: inside) rest (congrArg (l :: ·) split)

theorem StaysOpen.cons {depth depth' : Nat} {l : Lexeme} {ls : List Lexeme}
    (step : ∀ ls, depthFrom depth (l :: ls) = depthFrom depth' ls) (open_ : depth ≠ 0)
    (h : StaysOpen depth' ls) : StaysOpen depth (l :: ls) := by
  intro inside rest split
  cases inside with
  | nil => exact open_
  | cons first inside =>
      obtain ⟨rfl, behind⟩ := List.cons.inj split
      exact step inside ▸ h inside rest behind

/-- What is open before and stays open counts on top of what is opened since. -/
theorem StaysOpen.add {depth : Nat} {ls : List Lexeme} (h : StaysOpen depth ls) (more : Nat) :
    depthFrom (more + depth) ls = more + depthFrom depth ls := by
  induction ls generalizing depth with
  | nil => rfl
  | cons l ls ih =>
      cases opening : isOpening l with
      | true =>
          have step := depthFrom_opening opening
          rw [step, step, Nat.add_assoc, ih (h.tail (step depth))]
      | false =>
          cases closing : isClosing l with
          | true =>
              have step := depthFrom_closing opening closing
              have some_ : depth ≠ 0 := h [] (l :: ls) rfl
              rw [step, step, Nat.add_sub_assoc (Nat.pos_of_ne_zero some_), ih (h.tail (step depth))]
          | false =>
              have step := depthFrom_other opening closing
              rw [step, step, ih (h.tail (step depth))]

/-- Where brackets are open in the end, those before stay open, or some other one does. -/
theorem staysOpen_of_open {depth : Nat} {ls : List Lexeme} (open_ : depthFrom depth ls ≠ 0) :
    StaysOpen depth ls ∨
      ∃ before l after, ls = before ++ l :: after ∧ isOpening l = true ∧ StaysOpen 1 after := by
  induction ls generalizing depth with
  | nil =>
      refine .inl fun inside rest split => ?_
      obtain ⟨rfl, -⟩ := List.nil_eq_append_iff.mp split
      exact open_
  | cons l ls ih =>
      have later (h : ∃ before m after, ls = before ++ m :: after ∧ isOpening m = true ∧
          StaysOpen 1 after) : ∃ before m after, l :: ls = before ++ m :: after ∧
          isOpening m = true ∧ StaysOpen 1 after := by
        obtain ⟨before, m, after, rfl, rest⟩ := h
        exact ⟨l :: before, m, after, rfl, rest⟩
      cases opening : isOpening l with
      | true =>
          have step := depthFrom_opening opening depth
          refine (ih (step ls ▸ open_)).elim (fun stays => ?_) fun other => .inr (later other)
          by_cases top : depth = 0
          · exact .inr ⟨[], l, ls, rfl, opening, by simpa [top] using stays⟩
          · exact .inl (.cons step top stays)
      | false =>
          cases closing : isClosing l with
          | true =>
              have step := depthFrom_closing opening closing depth
              refine (ih (step ls ▸ open_)).imp (fun stays => ?_) later
              have some_ : depth - 1 ≠ 0 := stays [] ls rfl
              exact .cons step (by omega) stays
          | false =>
              have step := depthFrom_other opening closing depth
              exact (ih (step ls ▸ open_)).imp (fun stays => .cons step (stays [] ls rfl) stays) later

/-- All brackets are closed exactly where none is open in the end. -/
theorem closed_iff (ls : List Lexeme) : Closed ls ↔ depthAfter ls = 0 := by
  constructor
  · intro closed
    refine Decidable.byContradiction fun open_ => ?_
    obtain stays | ⟨before, l, after, split, opening, stays⟩ := @staysOpen_of_open 0 ls open_
    · exact stays [] ls rfl rfl
    · obtain ⟨inside, rest, goesOn, top⟩ := closed before l after split opening
      exact stays inside rest goesOn ((depthFrom_opening opening 0 inside).symm.trans top)
  · rintro top before l after rfl opening
    refine Classical.byContradiction fun open_ => ?_
    have stays : StaysOpen 1 after := fun inside rest split closes =>
      open_ ⟨inside, rest, split, (depthFrom_opening opening 0 inside).trans closes⟩
    rw [depthAfter_split, depthFrom_opening opening, stays.add] at top
    exact stays after [] (List.append_nil _).symm (Nat.add_eq_zero_iff.mp top).2

/-- Where brackets nest, as many are open as are due. -/
theorem nest_depth {ls : List Lexeme} {due : List Char} (nested : ls.foldlM nest [] = some due) :
    depthAfter ls = due.length := by
  induction ls using List.reverseRecOn generalizing due with
  | nil =>
      cases nested
      rfl
  | append_singleton ls l ih =>
      rw [List.foldlM_append] at nested
      obtain ⟨due₀, before, last⟩ := Option.bind_eq_some_iff.mp nested
      have last : nest due₀ l = some due := by simpa using last
      rw [depthAfter_append, ih before]
      unfold nest at last
      grind [isOpening, isClosing]

/-- Brackets nest if every closing one closes one of its kind and all are closed. -/
theorem nested_iff (ls : List Lexeme) : Nested ls ↔ Matching ls ∧ depthAfter ls = 0 := by
  constructor
  · intro nested
    exact ⟨fun none_ => by simp [Nested, none_] at nested, nest_depth nested⟩
  · rintro ⟨matching, top⟩
    obtain ⟨due, nested⟩ := Option.ne_none_iff_exists'.mp matching
    rw [nest_depth nested, List.length_eq_zero_iff] at top
    rw [Nested, nested, top]

/-! ## Regions read again -/

@[simp] theorem depthAfter_shift (j : Nat) (ls : List Lexeme) :
    depthAfter (ls.map (shift j)) = depthAfter ls := by
  rw [depthAfter, List.foldl_map]
  rfl

/-- How many brackets are open at an offset. -/
def depthAt (t : Text) (c : Nat) : Nat :=
  depthAfter ((scan t).1.filter (·.start < c))

/-- The lexemes of a stretch where it stands in the document. -/
def Stretch.lexemes (t : Text) (s : Stretch) : List Lexeme :=
  (scan t).1.filter fun l => s.start ≤ l.start ∧ l.start < s.close

section

variable {t : Text} {s : Stretch}

/-- Behind its opener a stretch goes on to its closing brace. -/
theorem stretch_around {upTo : Nat} (triggers : Triggers t s.region s.opener)
    (ends : Ends t s.opener s.close upTo) :
    ∃ before inside e after, (scan t).1 = before ++ s.opener :: (inside ++ brace e :: after) ∧
      s.close = e + 1 ∧ depthAfter before = 0 := by
  obtain ⟨-, before, rest, whole, top⟩ := triggers
  obtain ⟨⟨e, close, later, among⟩, -, -⟩ := ends
  have sorted : (scan t).1.Pairwise fun l l' => l.start < l'.start := scan_sorted 0 t
  have size : s.opener.start ≤ s.opener.stop := Nat.le_add_right _ _
  rw [whole] at sorted among
  obtain earlier | here := List.mem_append.mp among
  · have first := (List.pairwise_append.mp sorted).2.2 _ earlier s.opener List.mem_cons_self
    change e < s.opener.start at first
    omega
  · obtain same | behind := List.mem_cons.mp here
    · rw [← same] at later
      change e + 1 ≤ e at later
      omega
    · obtain ⟨inside, after, rfl⟩ := List.append_of_mem behind
      exact ⟨before, inside, e, after, whole, close, top⟩

/-- A stretch begins outside all brackets. -/
theorem stretch_begins {upTo : Nat} (triggers : Triggers t s.region s.opener)
    (ends : Ends t s.opener s.close upTo) :
    ∃ front inside e after, (scan t).1 = front ++ (inside ++ brace e :: after) ∧
      (scanWith Piece.of s.start (t.drop s.start)).1 = inside ++ brace e :: after ∧
      (∀ l ∈ front, l.start < s.start) ∧ s.close = e + 1 ∧ depthAfter front = 0 := by
  obtain ⟨before, inside, e, after, whole, close, top⟩ := stretch_around triggers ends
  have sorted : (scan t).1.Pairwise fun l l' => l.start < l'.start := scan_sorted 0 t
  rw [whole] at sorted
  have earlier (l : Lexeme) (among : l ∈ before) : l.start < s.opener.start :=
    (List.pairwise_append.mp sorted).2.2 l among s.opener List.mem_cons_self
  by_cases isVars : s.region = .vars
  · -- The keyword of variables is no bracket, and not part of the stretch.
    have word : s.opener.kind = .name := by
      obtain opens | ⟨-, isQuery⟩ := triggers.opens
      · unfold Region.openedBy? at opens
        split at opens
        next word => exact word
        next => cases opens
      · rw [isVars] at isQuery
        cases isQuery
    have some_ : s.opener.start < s.opener.stop := by
      obtain ⟨-, -, -, -, c, r, text, -⟩ := scan_standsIn (k := 0) (s := t) (l := s.opener)
        (by rw [← scan, whole]; simp)
      simp [Lexeme.stop, text]
    refine ⟨before ++ [s.opener], inside, e, after, by simp [whole], ?_, fun l among => ?_, close, ?_⟩
    · rw [Stretch.start, if_pos isVars]
      exact (scan_behind (t := t) rfl whole).symm
    · rw [Stretch.start, if_pos isVars]
      obtain old | new := List.mem_append.mp among
      · exact Nat.lt_trans (earlier l old) some_
      · exact List.mem_singleton.mp new ▸ some_
    · simp [depthAfter_append, isOpening, isClosing, isMark, word, top]
  · refine ⟨before, s.opener :: inside, e, after, whole, ?_, fun l among => ?_, close, top⟩
    · rw [Stretch.start, if_neg isVars]
      exact scan_at (t := t) rfl whole
    · rw [Stretch.start, if_neg isVars]
      exact earlier l among

/-- The lexemes that begin in front of the end of one are those up to it. -/
theorem filter_before {front after : List Lexeme} {e : Nat}
    (whole : (scan t).1 = front ++ brace e :: after) :
    (scan t).1.filter (·.start < e + 1) = front ++ [brace e] := by
  have sorted : (scan t).1.Pairwise fun l l' => l.start < l'.start := scan_sorted 0 t
  rw [whole] at sorted ⊢
  obtain ⟨-, behind, across⟩ := List.pairwise_append.mp sorted
  have kept : front.filter (·.start < e + 1) = front := List.filter_eq_self.mpr fun l among => by
    have first : l.start < e := across l among (brace e) List.mem_cons_self
    simpa using Nat.lt_succ_of_lt first
  have dropped : after.filter (·.start < e + 1) = [] := List.filter_eq_nil_iff.mpr fun l among => by
    have later : e < l.start := (List.pairwise_cons.mp behind).1 l among
    simpa using Nat.succ_le_of_lt later
  rw [List.filter_append, List.filter_cons_of_pos (by simp [brace]), kept, dropped]

/-- What is cut out of a text up to a closing brace has, read again, the lexemes that it has there. -/
theorem scan_slice {m e : Nat} {inside after : List Lexeme}
    (h : (scanWith Piece.of m (t.drop m)).1 = inside ++ brace e :: after)
    (among : brace e ∈ (scan t).1) :
    ∃ ls j, scan (slice t m (e + 1)).trim = (ls, none) ∧ ls.map (shift j) = inside ++ [brace e] := by
  obtain ⟨l, ls, split⟩ : ∃ l ls, inside ++ brace e :: after = l :: ls := by
    cases inside with
    | nil => exact ⟨_, _, rfl⟩
    | cons l inside => exact ⟨_, _, rfl⟩
  obtain ⟨gap, c, r, n, place, blanks, start, piece, -⟩ := scan_next (h.trans split)
  have within : m + gap.length ≤ e := by
    have sorted := scan_sorted m (t.drop m)
    rw [h.trans split] at sorted
    have listed : brace e ∈ l :: ls := by simp [← split]
    obtain here | behind := List.mem_cons.mp listed
    · exact Nat.le_of_eq (start.symm.trans (congrArg Lexeme.start here.symm))
    · have later : l.start < e := (List.pairwise_cons.mp sorted).1 _ behind
      omega
  have behind : t.drop (m + gap.length) = c :: r := by
    rw [← List.drop_drop, place, List.drop_left]
  obtain ⟨body, rest, dropped, size, ends⟩ := slice_to_brace among within
  have cut : slice t m (e + 1) = gap ++ (body ++ [closingBrace]) := by
    have long : e + 1 - m = gap.length + (e + 1 - (m + gap.length)) := by omega
    rw [← ends, slice, slice, List.drop_take, List.drop_take, place, behind, long,
      List.take_length_add_append]
  rw [place, scan_blanks blanks, ← behind, dropped, size] at h
  obtain ⟨before, scanned, moved⟩ := scan_cut_alone h
  refine ⟨before ++ [brace body.length], m + gap.length, ?_, ?_⟩
  · rw [cut, trim_after blanks, trim_cut (dropped.symm.trans behind) (lexeme_not_blank piece)]
    exact scanned
  · rw [List.map_append, moved, size]
    rfl

/-- Read again, a region has the lexemes that it has in the document, and as many brackets are open in
    the end as there. -/
theorem stretch_reread {upTo : Nat} (triggers : Triggers t s.region s.opener)
    (ends : Ends t s.opener s.close upTo) :
    ∃ ls j, scan (s.value t) = (ls, none) ∧ ls.map (shift j) = s.lexemes t ∧
      depthAfter ls = depthAt t s.close := by
  obtain ⟨front, inside, e, after, whole, behind, early, close, top⟩ := stretch_begins triggers ends
  have upTo_ : (scan t).1.filter (·.start < s.close) = front ++ (inside ++ [brace e]) := by
    have around : (scan t).1 = (front ++ inside) ++ brace e :: after := by simp [whole]
    rw [close, filter_before around, List.append_assoc]
  have within : s.lexemes t = inside ++ [brace e] := by
    have later : ∀ l ∈ inside ++ [brace e], s.start ≤ l.start := fun l among =>
      scan_start (by rw [behind, List.append_cons]; exact List.mem_append_left _ among)
    have both : s.lexemes t =
        ((scan t).1.filter (·.start < s.close)).filter (s.start ≤ ·.start) := by
      simp [Stretch.lexemes, List.filter_filter]
    have dropped : front.filter (s.start ≤ ·.start) = [] :=
      List.filter_eq_nil_iff.mpr fun l among => by simpa using early l among
    have kept : (inside ++ [brace e]).filter (s.start ≤ ·.start) = inside ++ [brace e] :=
      List.filter_eq_self.mpr fun l among => by simpa using later l among
    rw [both, upTo_, List.filter_append, dropped, kept, List.nil_append]
  obtain ⟨ls, j, scanned, moved⟩ := scan_slice behind (by simp [whole])
  refine ⟨ls, j, ?_, moved.trans within.symm, ?_⟩
  · rw [Stretch.value, close, scanned]
  · rw [depthAt, upTo_, depthAfter_split, top, ← moved, ← depthAfter_shift j ls]
    rfl

theorem depthFrom_comments {comments : List Lexeme} (all : ∀ l ∈ comments, l.kind = .comment)
    (depth : Nat) : depthFrom depth comments = depth := by
  induction comments with
  | nil => rfl
  | cons l comments ih =>
      obtain ⟨comment, all⟩ := List.forall_mem_cons.mp all
      rw [depthFrom_other (by simp [isOpening, isMark, comment])
        (by simp [isClosing, isMark, comment]), ih all]

/-- Where a stretch is followed by another one, no bracket is open at its end. -/
theorem stretch_followed {s' : Stretch} (triggers : Triggers t s.region s.opener)
    (triggers' : Triggers t s'.region s'.opener) (ends : Ends t s.opener s.close s'.opener.start)
    (gap : Gap false (slice t s.close s'.opener.start)) : depthAt t s.close = 0 := by
  obtain ⟨before, inside, e, after, whole, close, -⟩ := stretch_around triggers ends
  obtain ⟨-, before', after', whole', top⟩ := triggers'
  have around : (scan t).1 = (before ++ s.opener :: inside) ++ brace e :: after := by simp [whole]
  have behind := scan_behind (t := t) rfl around
  have place : t.drop (brace e).stop =
      slice t s.close s'.opener.start ++ t.drop s'.opener.start := by
    have stop : (brace e).stop = s.close := close.symm
    have order := ends.within
    rw [stop, slice, List.drop_take]
    conv_lhs => rw [← List.take_append_drop (s'.opener.start - s.close) (t.drop s.close)]
    rw [List.drop_drop, Nat.add_sub_cancel' order]
  obtain ⟨comments, all, passed⟩ := passes_gap gap (t := t.drop s'.opener.start)
    (fun atEnd => absurd atEnd Bool.false_ne_true) (brace e).stop
  have size : (brace e).stop + (slice t s.close s'.opener.start).length = s'.opener.start := by
    have inText : s'.opener.start ≤ t.length := by
      obtain ⟨front, rest, text, start, -⟩ := scan_standsIn (k := 0) (s := t) (l := s'.opener)
        (by rw [← scan, whole']; simp)
      rw [start, text, List.length_append]
      omega
    have stop : (brace e).stop = s.close := close.symm
    have order := ends.within
    rw [stop, slice, List.length_drop, List.length_take, Nat.min_eq_left inText]
    omega
  rw [place, passed, size] at behind
  have same : before' = (before ++ s.opener :: inside) ++ brace e :: comments := by
    have next := scan_at (t := t) rfl whole'
    rw [next] at behind
    rw [around, behind] at whole'
    have ends : before' ++ s'.opener :: after' =
        (before ++ s.opener :: inside ++ brace e :: comments) ++ s'.opener :: after' := by
      simpa using whole'.symm
    exact List.append_cancel_right ends
  have depth : depthAfter before' = depthAt t s.close := by
    rw [depthAt, close, filter_before around, same, List.append_cons, depthAfter_split,
      depthFrom_comments all]
  exact depth.symm.trans top

theorem Divides.followed {ss : List Stretch} {upTo : Nat} (divides : Divides t upTo ss)
    (among : s ∈ ss.dropLast) : ∃ s' ∈ ss, Ends t s.opener s.close s'.opener.start ∧
      Gap false (slice t s.close s'.opener.start) := by
  have next := divides.next
  have some_ : ss ≠ [] := by
    rintro rfl
    cases among
  obtain ⟨before, after, split⟩ := List.append_of_mem among
  have whole := List.dropLast_append_getLast some_
  rw [split, List.append_assoc, List.cons_append] at whole
  obtain ⟨s', rest, behind⟩ : ∃ s' rest, after ++ [ss.getLast some_] = s' :: rest := by
    cases after with
    | nil => exact ⟨_, _, rfl⟩
    | cons s' after => exact ⟨_, _, rfl⟩
  rw [behind] at whole
  rw [← whole] at next ⊢
  exact ⟨s', by simp, (List.isChain_cons_cons.mp (List.isChain_append.mp next).2.1).1⟩

theorem Divides.ends {ss : List Stretch} {upTo : Nat} (divides : Divides t upTo ss)
    (among : s ∈ ss) : ∃ upTo, Ends t s.opener s.close upTo := by
  have some_ : ss ≠ [] := List.ne_nil_of_mem among
  rw [← List.dropLast_append_getLast some_] at among
  obtain early | last := List.mem_append.mp among
  · obtain ⟨s', -, ends, -⟩ := divides.followed early
    exact ⟨_, ends⟩
  · obtain rfl := List.mem_singleton.mp last
    exact ⟨_, divides.last _ (List.getLast_mem_getLast? some_)⟩

/-- Every region of a document that is cut into parts has, read again, the lexemes that it has in the
    document. All its brackets are closed if none is open in the document where the region ends; so it
    is for every region but the last. They nest if also no closing bracket closes one of another
    kind or none. -/
theorem ofText_balanced {p : Parts} (h : ofText t = .ok p) :
    ∃ ss, Divides t t.length ss ∧ MadeOf t t.length ss p ∧
      (∀ s ∈ ss, ∃ ls j, scan (s.value t) = (ls, none) ∧ ls.map (shift j) = s.lexemes t ∧
        (Closed ls ↔ depthAt t s.close = 0) ∧
        (Nested ls ↔ Matching ls ∧ depthAt t s.close = 0)) ∧
      ∀ s ∈ ss.dropLast, depthAt t s.close = 0 := by
  obtain ⟨ss, divides, made⟩ := ofText_divided h
  refine ⟨ss, divides, made, fun s among => ?_, fun s among => ?_⟩
  · obtain ⟨upTo, ends⟩ := divides.ends among
    obtain ⟨ls, j, scanned, moved, depth⟩ := stretch_reread (divides.triggers s among) ends
    refine ⟨ls, j, scanned, moved, ?_, ?_⟩
    · rw [closed_iff, depth]
    · rw [nested_iff, depth]
  · obtain ⟨s', among', ends, gap⟩ := divides.followed among
    exact stretch_followed (divides.triggers s (List.mem_of_mem_dropLast among))
      (divides.triggers s' among') ends gap

end

/-- The bracket of another kind is closed too, but does not nest. -/
theorem ofText_balanced_of_kinds :
    let t := Text.ofString "fragment F on T \x7b a(b: [1)] \x7d # c\nquery \x7b d \x7d"
    ∃ ss, Divides t t.length ss ∧ MadeOf t t.length ss
        { query := "query \x7b d \x7d"
          fragments := [⟨"F", "fragment F on T \x7b a(b: [1)] \x7d"⟩] } ∧
      (∀ s ∈ ss, ∃ ls j, scan (s.value t) = (ls, none) ∧ ls.map (shift j) = s.lexemes t ∧
        (Closed ls ↔ depthAt t s.close = 0) ∧
        (Nested ls ↔ Matching ls ∧ depthAt t s.close = 0)) ∧
      ∀ s ∈ ss.dropLast, depthAt t s.close = 0 :=
  ofText_balanced (except_ok (by decide +kernel))

/-- The fragment that stands last is cut out although its outer brace is never closed. -/
theorem unclosed_accepted :
    ∃ p f, ofText (Text.ofString "query A \x7b a \x7d fragment F on T \x7b b \x7b c \x7d") = .ok p ∧
      f ∈ p.fragments ∧ (scan f.value).2 = none ∧ ¬Closed (scan f.value).1 ∧
      ¬Nested (scan f.value).1 := by
  have cut : ofText (Text.ofString "query A \x7b a \x7d fragment F on T \x7b b \x7b c \x7d") = .ok
      { query := "query A \x7b a \x7d"
        fragments := [⟨"F", "fragment F on T \x7b b \x7b c \x7d"⟩] } :=
    except_ok (by decide +kernel)
  refine ⟨_, _, cut, List.mem_singleton.mpr rfl, by decide +kernel, ?_, ?_⟩
  · rw [closed_iff]
    decide +kernel
  · rw [Nested]
    decide +kernel

end Parts

end ApprovedOps
