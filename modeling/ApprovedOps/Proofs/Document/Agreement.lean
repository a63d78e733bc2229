import ApprovedOps.Proofs.Document.Standing

/-! # Parts and definitions

A document of one operation with a name and any fragments is cut into these definitions, each fragment
with its name, if no definition has a description, only comments stand between a definition and the next
one, and nothing but blanks between `fragment` and a name. Where one of the three fails, the parts are
others.
-/

namespace ApprovedOps

open Lexeme GraphQL

namespace Parts

/-! ## Definitions in a row -/

/-- Are the lexemes those of definitions, one after the other? -/
inductive Row (t : Text) : Document → List (List Token) → List Lexeme → Prop where
  | nil {ls} : (∀ l ∈ ls, Silent l) → Row t [] [] ls
  | cons {d ds ts tss gap opener inside close ls} : Standing t d ts gap opener inside close →
      Row t ds tss ls → Row t (d :: ds) (ts :: tss) (gap ++ opener :: (inside ++ close :: ls))

variable {t : Text} {d : Definition} {ts us : List Token} {ds : Document} {tss : List (List Token)}
  {gap inside before ls : List Lexeme} {opener close : Lexeme}

theorem row_of_taken {front more : List Lexed} (taken : List.Forall₂ Definition.Taken ds tss)
    (plain : ∀ d ∈ ds, d.Undescribed)
    (scanned : Lexed.scan t = front ++ (tss.flatten.map .token ++ more))
    (aligned : Aligned tss.flatten ls) : Row t ds tss ls := by
  induction taken generalizing front ls with
  | nil => exact .nil (aligned_nil aligned)
  | @cons d ts ds tss taken _ ih =>
      obtain ⟨here, later⟩ := List.forall_mem_cons.mp plain
      obtain ⟨first, second, rest, rfl⟩ := whole_long taken.whole
      obtain ⟨_, _, split, isName, -⟩ := leads_keyword (taken.leads here)
      obtain ⟨rfl, -⟩ := List.cons.inj split
      rw [List.flatten_cons] at aligned scanned
      obtain ⟨gap, opener, inside, close, ls', rfl, placed, aligned⟩ :=
        placed_next aligned taken.whole (by rw [isName]; nofun)
      rw [List.map_append, List.append_assoc] at scanned
      exact .cons ⟨⟨front, _, scanned⟩, placed, taken, here⟩
        (ih later (scanned.trans (List.append_assoc ..).symm) aligned)

theorem getLast?_tokens (first : Token) (mid : List Token) (last : Token) :
    (first :: (mid ++ [last])).getLast? = some last :=
  List.getLast?_concat (l := first :: mid)

/-- Behind a definition stands the next one. -/
theorem row_behind {gap' inside' : List Lexeme} {opener' close' : Lexeme}
    (whole : (scan t).1 =
      before ++ opener :: (inside ++ close :: (gap' ++ opener' :: (inside' ++ close' :: ls)))) :
    (scan t).1 =
        (before ++ opener :: inside) ++ close :: (gap' ++ opener' :: (inside' ++ close' :: ls)) ∧
      (scan t).1 =
        (before ++ opener :: (inside ++ close :: gap')) ++ opener' :: (inside' ++ close' :: ls) := by
  constructor <;> rw [whole] <;> simp

/-- Two definitions follow one another if all lexemes between them are comments. -/
theorem follows_gap {d' : Definition} {gap' inside' after : List Lexeme} {opener' close' : Lexeme}
    (stands : Standing t d ts gap opener inside close)
    (next : Standing t d' us gap' opener' inside' close')
    (whole : (scan t).1 = before ++ close :: (gap' ++ opener' :: after)) :
    Follows t ts us ↔ ∀ l ∈ gap', l.kind = .comment := by
  obtain ⟨first, mid, last, rfl, -, -, same⟩ := stands.placed.tokens
  obtain ⟨first', mid', last', rfl, same', -, -⟩ := next.placed.tokens
  have between (x : Lexeme) (among : x ∈ (scan t).1) := between_gap whole x among
  rw [same.start, same'.start] at between
  constructor
  · intro follows l among
    have inText : l ∈ (scan t).1 := by
      rw [whole]
      simp [among]
    obtain ⟨later, earlier⟩ := (between l inText).mpr among
    exact follows last (getLast?_tokens first mid last) first' rfl l inText later earlier
  · intro comments u isLast v isFirst l inText later earlier
    obtain rfl := Option.some.inj ((getLast?_tokens first mid last).symm.trans isLast)
    obtain rfl : first' = v := by simpa using isFirst
    exact comments l ((between l inText).mp ⟨later, earlier⟩)

/-! ## Parts of definitions -/

theorem room_next {p p₁ : Parts} (extends_ : p.Extends p₁ [d])
    (single : p.operations + (Canonical.operations (d :: ds)).length ≤ 1) :
    p₁.operations + (Canonical.operations ds).length ≤ 1 := by
  rw [← List.singleton_append, operations_append, List.length_append] at single
  obtain ⟨none_, same⟩ | ⟨o, one, -, -⟩ := extends_.query
  · rw [none_, List.length_nil, Nat.zero_add] at single
    rw [operations, same]
    exact single
  · rw [one, List.length_singleton] at single
    have atMost : p₁.operations ≤ 1 := by
      unfold operations
      split <;> omega
    omega

theorem Standing.room (stands : Standing t d ts gap opener inside close) {p : Parts}
    (single : p.operations + (Canonical.operations (d :: ds)).length ≤ 1)
    (other : d.isFragment = false) : p.query = [] := by
  cases d with
  | operation o =>
      have here : Canonical.operations (.operation o :: ds) = o :: Canonical.operations ds := rfl
      rw [here, List.length_cons, operations] at single
      refine Decidable.byContradiction fun some_ => ?_
      rw [if_neg some_] at single
      omega
  | fragment => cases other
  | _ => exact stands.leads.elim

/-- Where definitions follow one another, the walk finds the parts of all of them. -/
theorem Row.run (row : Row t ds tss ls) (stands : Standing t d ts gap opener inside close)
    (whole : (scan t).1 = before ++ opener :: (inside ++ close :: ls)) {p : Parts}
    (chain : (ts :: tss).IsChain (Follows t)) (headed : ∀ us ∈ ts :: tss, Headed t us)
    (single : p.operations + (Canonical.operations (d :: ds)).length ≤ 1) :
    ∃ w p', ls.foldlM (Walk.step t) (Walk.leaving p d opener close) = .ok w ∧
      w.flush t t.length = .ok p' ∧ p.Extends p' (d :: ds) := by
  induction row generalizing d ts gap opener inside close before p with
  | nil silent =>
      obtain ⟨p', flushed, extends_⟩ := stands.flush whole (headed ts List.mem_cons_self)
        (stands.room single) t.length
      exact ⟨_, p', run_silent silent _, flushed, extends_⟩
  | @cons d' ds us tss gap' opener' inside' close' ls next row ih =>
      obtain ⟨follows, chain⟩ := List.isChain_cons_cons.mp chain
      obtain ⟨headed₀, headed⟩ := List.forall_mem_cons.mp headed
      obtain ⟨p₁, flushed, extends_⟩ := stands.flush whole headed₀ (stands.room single) opener'.start
      obtain ⟨around, behind⟩ := row_behind whole
      have comments := (follows_gap stands next around).mp follows
      have entered := next.placed.run_opened (t := t) (w := Walk.leaving p d opener close)
        next.taken.whole next.leads rfl (.inr ⟨rfl, comments⟩)
      rw [flushed] at entered
      obtain ⟨w, p', run, last, extends'⟩ := ih next behind chain headed (room_next extends_ single)
      refine ⟨w, p', ?_, last, extends_.trans extends'⟩
      have split : gap' ++ opener' :: (inside' ++ close' :: ls) =
          (gap' ++ opener' :: (inside' ++ [close'])) ++ ls := by simp
      rw [split, List.foldlM_append, entered]
      exact run

/-! ## Definitions that are passed over -/

/-- How many operations and fragments there are. -/
def count (p : Parts) : Nat :=
  p.fragments.length + p.operations

/-- How many there are when the open region is complete, if it is one. -/
def Walk.total (w : Walk) : Nat :=
  w.parts.count + if w.region = .comment then 0 else 1

theorem flush_count {w : Walk} {k : Nat} {p : Parts} (h : w.flush t k = .ok p) :
    p.count ≤ w.total := by
  obtain ⟨parts, region, start, close, depth, afterBrace⟩ := w
  cases region with
  | comment =>
      cases h
      exact Nat.le_add_right _ _
  | vars =>
      cases close <;> cases h
      exact Nat.le_add_right _ _
  | query =>
      cases close with
      | none => cases h
      | some close =>
          simp only [Walk.flush] at h
          split at h <;> cases h
          have atMost (p : Parts) : p.operations ≤ 1 := by
            unfold operations
            split <;> omega
          exact Nat.add_le_add (Nat.le_add_right _ _) (atMost _)
  | fragment =>
      cases close with
      | none => cases h
      | some close =>
          obtain ⟨name, -, made⟩ := except_bind_ok h
          cases made
          simp only [count, Walk.total, operations, List.length_append, List.length_singleton]
          simp
          omega

theorem leaving_total (p : Parts) (d : Definition) (opener close : Lexeme) :
    (Walk.leaving p d opener close).total = p.count + 1 :=
  congrArg (p.count + ·) (if_neg (regionOf_opened d).1)

/-- The walk through a definition: it begins a region, or goes on in the one that is open. -/
theorem Standing.run (stands : Standing t d ts gap opener inside close) {w w' : Walk}
    (top : w.depth = 0) (opened : w.region ≠ .comment)
    (h : (gap ++ opener :: (inside ++ close :: ls)).foldlM (Walk.step t) w = .ok w') :
    ((w.afterBrace = true ∧ ∀ l ∈ gap, l.kind = .comment) ∧ ∃ p, w.flush t opener.start = .ok p ∧
      ls.foldlM (Walk.step t) (Walk.leaving p d opener close) = .ok w') ∨
    ls.foldlM (Walk.step t) { w with close := some close.stop, afterBrace := true } = .ok w' := by
  have split : gap ++ opener :: (inside ++ close :: ls) =
      (gap ++ opener :: (inside ++ [close])) ++ ls := by simp
  rw [split, List.foldlM_append] at h
  by_cases enters : w.afterBrace = true ∧ ∀ l ∈ gap, l.kind = .comment
  · rw [stands.placed.run_opened stands.taken.whole stands.leads top (.inr enters)] at h
    obtain ⟨w₁, entered, run⟩ := except_bind_ok h
    obtain ⟨p, flushed, rfl⟩ := except_map_ok entered
    exact .inl ⟨enters, p, flushed, run⟩
  · rw [stands.placed.run_passed stands.taken.whole stands.leads top opened enters] at h
    exact .inr h

/-- The walk finds no more parts than there are definitions. -/
theorem Row.count_le (row : Row t ds tss ls) {w w' : Walk} {p : Parts} {k : Nat} (top : w.depth = 0)
    (opened : w.region ≠ .comment) (run : ls.foldlM (Walk.step t) w = .ok w')
    (flushed : w'.flush t k = .ok p) : p.count ≤ w.total + ds.length := by
  induction row generalizing w with
  | nil silent =>
      rw [run_silent silent] at run
      cases run
      exact flush_count flushed
  | @cons d ds ts tss gap opener inside close ls stands row ih =>
      rw [List.length_cons]
      obtain ⟨-, p₁, flushed₁, run⟩ | run := stands.run top opened run
      · have later := ih rfl (regionOf_opened d).1 run
        have here := flush_count flushed₁
        rw [leaving_total] at later
        omega
      · exact Nat.le_succ_of_le
          (ih (w := { w with close := some close.stop, afterBrace := true }) top opened run)

/-- If the walk finds as many parts as there are definitions, these follow one another. -/
theorem Row.spaced (row : Row t ds tss ls) (stands : Standing t d ts gap opener inside close)
    (whole : (scan t).1 = before ++ opener :: (inside ++ close :: ls)) {p p' : Parts} {w : Walk}
    {k : Nat} (run : ls.foldlM (Walk.step t) (Walk.leaving p d opener close) = .ok w)
    (flushed : w.flush t k = .ok p') (all : p.count + 1 + ds.length ≤ p'.count) :
    (ts :: tss).IsChain (Follows t) ∧ ∀ us ∈ ts :: tss, Headed t us := by
  induction row generalizing d ts gap opener inside close before p with
  | nil silent =>
      rw [run_silent silent] at run
      cases run
      have headed : Headed t ts := stands.flush_headed (p := p) (k := k) whole flushed
      exact ⟨.singleton _, List.forall_mem_singleton.mpr headed⟩
  | @cons d' ds us tss gap' opener' inside' close' ls next row ih =>
      rw [List.length_cons] at all
      obtain ⟨⟨-, comments⟩, p₁, flushed₁, run⟩ | run := next.run rfl (regionOf_opened d).1 run
      · have atMost := row.count_le rfl (regionOf_opened d').1 run flushed
        have here := flush_count flushed₁
        rw [leaving_total] at atMost here
        obtain ⟨around, behind⟩ := row_behind whole
        obtain ⟨chain, headed⟩ := ih next behind run (by omega)
        refine ⟨List.isChain_cons_cons.mpr ⟨?_, chain⟩,
          List.forall_mem_cons.mpr ⟨stands.flush_headed whole flushed₁, headed⟩⟩
        exact (follows_gap stands next around).mpr comments
      · have atMost := row.count_le rfl (regionOf_opened d).1 run flushed
        have same : Walk.total { Walk.leaving p d opener close with
            close := some close'.stop, afterBrace := true } = p.count + 1 := leaving_total p d opener close
        rw [same] at atMost
        omega

/-! ## Documents -/

/-- Are the parts those of a document of one operation and fragments: is the query read as the operation
    alone and named as it is, and are the fragments those of the document, each alone, in order? -/
structure Agrees (p : Parts) (ds : Document) : Prop where
  query : ∃ o c, Canonical.operations ds = [o] ∧ Canonical.ofText p.query = .ok c ∧
    o.name = some c.name ∧ Document.ofText p.query = .ok [.operation o]
  fragments : List.Forall₂ Fragment.Declares p.fragments (ds.filter (·.isFragment))

theorem tokens_of_scan {last : Token} (scanned : Lexed.scan t = ts.map .token ++ [.token last]) :
    Lexed.tokens t = ts := by
  rw [Lexed.tokens, scanned, List.filterMap_append, List.filterMap_map]
  have all : ts.filterMap (Lexed.token? ∘ Lexed.token) = ts := List.filterMap_some
  rw [all]
  exact List.dropLast_concat

theorem ofText_row (h : Document.ofText t = .ok ds) (requests : ∀ d ∈ ds, d.IsRequest)
    (visible : Visible t) (plain : ∀ d ∈ ds, d.Undescribed) :
    (scan t).2 = none ∧ Row t ds (Token.blocks [] (Lexed.tokens t)) (scan t).1 := by
  obtain ⟨tss, last, scanned, isEnd, taken⟩ := ofText_taken h requests
  have tokens := tokens_of_scan scanned
  rw [Visible, tokens] at visible
  obtain ⟨complete, aligned⟩ := scan_aligned ⟨last, isEnd, scanned⟩ visible
  rw [tokens, blocks_flatten taken]
  exact ⟨complete, row_of_taken taken plain ((List.nil_append _).trans scanned.symm).symm aligned⟩

theorem mem_operations {o : Operation} (h : Canonical.operations ds = [o]) : .operation o ∈ ds := by
  have among : o ∈ Canonical.operations ds := by rw [h]; exact List.mem_singleton.mpr rfl
  obtain ⟨d, inside, found⟩ := List.mem_filterMap.mp among
  cases d with
  | operation o' =>
      cases found
      exact inside
  | _ => cases found

theorem requests_length {ds : Document} (requests : ∀ d ∈ ds, d.IsRequest) :
    ds.length = (Canonical.operations ds).length + (ds.filter (·.isFragment)).length := by
  induction ds with
  | nil => rfl
  | cons d ds ih =>
      obtain ⟨request, later⟩ := List.forall_mem_cons.mp requests
      cases d with
      | operation o =>
          have operations : Canonical.operations (.operation o :: ds) =
              o :: Canonical.operations ds := rfl
          have fragments : List.filter (·.isFragment) (.operation o :: ds) =
              ds.filter (·.isFragment) := rfl
          rw [List.length_cons, ih later, operations, fragments, List.length_cons]
          omega
      | fragment desc n type dirs ss =>
          have operations : Canonical.operations (.fragment desc n type dirs ss :: ds) =
              Canonical.operations ds := rfl
          have fragments : List.filter (·.isFragment) (.fragment desc n type dirs ss :: ds) =
              .fragment desc n type dirs ss :: ds.filter (·.isFragment) := rfl
          rw [List.length_cons, ih later, operations, fragments, List.length_cons]
          omega
      | _ => exact request.elim

theorem ofText_first (row : Row t (d :: ds) (ts :: tss) ls) (whole : (scan t).1 = ls) :
    ∃ gap opener inside close ls', ls = gap ++ opener :: (inside ++ close :: ls') ∧
      Standing t d ts gap opener inside close ∧ Row t ds tss ls' ∧
      ls.foldlM (Walk.step t) {} = ls'.foldlM (Walk.step t)
        (Walk.leaving { comment := (slice t 0 opener.start).trim } d opener close) := by
  cases row with
  | @cons _ _ _ _ gap opener inside close ls' stands row =>
      refine ⟨gap, opener, inside, close, ls', rfl, stands, row, ?_⟩
      have entered := stands.placed.run_opened (t := t) (w := {}) stands.taken.whole stands.leads rfl
        (.inl rfl)
      have split : gap ++ opener :: (inside ++ close :: ls') =
          (gap ++ opener :: (inside ++ [close])) ++ ls' := by simp
      rw [split, List.foldlM_append, entered]
      rfl

/-- Definitions that follow one another are found as they are. -/
theorem agrees_of_spaced (h : Document.ofText t = .ok ds) (requests : ∀ d ∈ ds, d.IsRequest)
    (one : (Canonical.operations ds).length = 1) (visible : Visible t)
    (plain : ∀ d ∈ ds, d.Undescribed) (spaced : Spaced t) : ∃ p, ofText t = .ok p ∧ p.Agrees ds := by
  obtain ⟨complete, row⟩ := ofText_row h requests visible plain
  obtain ⟨chain, headed⟩ := spaced
  revert chain headed row
  generalize Token.blocks [] (Lexed.tokens t) = tss
  intro row chain headed
  cases ds with
  | nil => cases one
  | cons d ds =>
      cases tss with
      | nil => cases row
      | cons ts tss =>
          obtain ⟨gap, opener, inside, close, ls', whole, stands, row, begins⟩ := ofText_first row rfl
          obtain ⟨w, p, run, flushed, extends_⟩ := row.run stands whole chain headed
            (p := { comment := (slice t 0 opener.start).trim }) (by rw [one]; exact Nat.le_refl 1)
          refine ⟨p, ?_, ?_, ?_⟩
          · simp only [ofText, begins, run, complete, bind, Except.bind, flushed]
          · obtain ⟨none_, -⟩ | ⟨o, only, -, read⟩ := extends_.query
            · rw [none_] at one
              cases one
            · have request : o.name.isSome = true := requests (.operation o) (mem_operations only)
              obtain ⟨name, named⟩ := Option.isSome_iff_exists.mp request
              refine ⟨o, ⟨Document.render [.operation o], name⟩, only, ?_, named, read⟩
              rw [Canonical.ofText, read]
              simp only [Canonical.operations, List.filterMap_cons, List.head?_cons, named]
          · obtain ⟨fs, fragments, declares⟩ := extends_.fragments
            rw [fragments]
            exact declares

/-- Behind blanks begins what is read first. -/
theorem first_name {k : Nat} {s r : Text} {c : CodePoint} (faultless : Faultless k s ts)
    (begins : s.trimLeft = c :: r) (start : c.isNameStart = true) :
    ∃ first us, ts = first :: us ∧ first.kind = .name := by
  induction s generalizing k with
  | nil => cases begins
  | cons e s ih =>
      by_cases ignored : Lexed.isIgnored e = true
      · cases blank : e.isBlank with
        | true =>
            rw [Text.trimLeft, List.dropWhile_cons_of_pos blank] at begins
            exact ih (faultless.ignored ignored) begins
        | false =>
            rw [Text.trimLeft, List.dropWhile_cons_of_neg (by simp [blank])] at begins
            obtain ⟨rfl, -⟩ := List.cons.inj begins
            rw [(nameStart_other start).1] at ignored
            cases ignored
      · by_cases hash : e = .char '#'
        · subst hash
          obtain ⟨rfl, -⟩ := List.cons.inj begins
          cases start
        · obtain ⟨kind, v, n, us, token, rfl, rest⟩ := faultless.solid ignored hash
          have solid : e.isBlank = false := by
            obtain ⟨lk, piece, -⟩ | ⟨_, -, rfl, -⟩ := begins_same token rest.known
            · exact lexeme_not_blank piece
            · decide
          rw [Text.trimLeft, List.dropWhile_cons_of_neg (by simp [solid])] at begins
          obtain ⟨rfl, rfl⟩ := List.cons.inj begins
          have same := (begins_tokenAt token).symm.trans (begins_tokenAt (.name start))
          exact ⟨_, us, rfl, (Prod.mk.inj (Except.ok.inj same)).1⟩

/-- A text that declares the name of a fragment begins with no description. -/
theorem declared_undescribed {v n : Text} (declared : Fragment.nameOf v = .ok n)
    (read : Document.ofText v = .ok [d]) (request : d.IsRequest) : d.Undescribed := by
  obtain ⟨tss, last, scanned, isEnd, -⟩ := ofText_taken read (List.forall_mem_singleton.mpr request)
  obtain ⟨r, begins⟩ : ∃ r, v.trimLeft = Text.ofString "fragment" ++ r := by
    rw [Fragment.nameOf] at declared
    split at declared
    next found =>
      rw [Fragment.declaredName?] at found
      split at found
      next => cases found
      next r prefix_ => exact ⟨r, (List.isPrefixOf?_eq_some_iff_append_eq.mp prefix_).symm⟩
    next => cases declared
  obtain ⟨first, us, split, isName⟩ := first_name ⟨last, isEnd, scanned⟩ begins (by decide)
  rw [split] at scanned
  refine ofText_undescribed read request scanned fun isString => ?_
  simp [Reader.isString, isName] at isString

theorem forall₂_right {α β : Type} {R : α → β → Prop} {as : List α} {bs : List β}
    (h : List.Forall₂ R as bs) {b : β} (among : b ∈ bs) : ∃ a ∈ as, R a b := by
  induction h with
  | nil => cases among
  | @cons a _ as _ first _ ih =>
      obtain rfl | later := List.mem_cons.mp among
      · exact ⟨a, List.mem_cons_self, first⟩
      · obtain ⟨a', inside, related⟩ := ih later
        exact ⟨a', List.mem_cons_of_mem a inside, related⟩

theorem agrees_undescribed {p : Parts} (cut : ofText t = .ok p) (agrees : p.Agrees ds)
    (requests : ∀ d ∈ ds, d.IsRequest) : ∀ d ∈ ds, d.Undescribed := by
  intro d among
  have request := requests d among
  cases d with
  | operation o =>
      obtain ⟨o', c, only, accepted, -, read⟩ := agrees.query
      have inside : o ∈ Canonical.operations ds := List.mem_filterMap.mpr ⟨_, among, rfl⟩
      rw [only] at inside
      obtain rfl := List.mem_singleton.mp inside
      have begins := (ofText_sound cut).1.resolve_left (Canonical.ofText_ne_nil accepted)
      obtain ⟨word, rest, text, opening⟩ := begins
      obtain ⟨first, more, scanned, starts⟩ := scan_opening opening
      rw [← text] at scanned
      refine ofText_undescribed read request scanned fun isString => ?_
      rw [Reader.isString, Bool.or_eq_true, decide_eq_true_eq, decide_eq_true_eq] at isString
      obtain kind | kind := isString <;> simp [beginsOperation, kind, Reader.mark] at starts
  | fragment desc n type dirs ss =>
      have inside : .fragment desc n type dirs ss ∈ ds.filter (·.isFragment) :=
        List.mem_filter.mpr ⟨among, rfl⟩
      obtain ⟨f, listed, declares⟩ := forall₂_right agrees.fragments inside
      exact declared_undescribed (ofText_declared cut f listed) declares.read request
  | _ => exact request.elim

/-- Definitions that are found as they are follow one another. -/
theorem spaced_of_agrees {p : Parts} (h : Document.ofText t = .ok ds)
    (requests : ∀ d ∈ ds, d.IsRequest) (visible : Visible t) (plain : ∀ d ∈ ds, d.Undescribed)
    (cut : ofText t = .ok p) (agrees : p.Agrees ds) : Spaced t := by
  obtain ⟨complete, row⟩ := ofText_row h requests visible plain
  obtain ⟨w, run, flushed⟩ := except_bind_ok cut
  change (scan t).1.foldlM (Walk.step t) {} = .ok w at run
  rw [← scan, complete] at flushed
  obtain ⟨o, c, only, accepted, -⟩ := agrees.query
  have all : p.count = ds.length := by
    rw [requests_length requests, only, ← agrees.fragments.length_eq, count, operations,
      if_neg (Canonical.ofText_ne_nil accepted), List.length_singleton, Nat.add_comm]
  suffices both : (Token.blocks [] (Lexed.tokens t)).IsChain (Follows t) ∧
      ∀ ts ∈ Token.blocks [] (Lexed.tokens t), Headed t ts from ⟨both.1, both.2⟩
  revert row
  generalize Token.blocks [] (Lexed.tokens t) = tss
  intro row
  cases ds with
  | nil => cases only
  | cons d ds =>
      cases tss with
      | nil => cases row
      | cons ts tss =>
          obtain ⟨gap, opener, inside, close, ls', whole, stands, row, begins⟩ := ofText_first row rfl
          rw [begins] at run
          exact row.spaced stands whole run flushed (by rw [all]; simp [count, operations]; omega)

/-- A document of one operation with a name and any fragments is cut into these definitions just if
    none of them has a description, only comments stand between one and the next, and nothing but
    blanks behind `fragment`. No token may stand in what is read as a comment, as behind a carriage
    return that ends one. -/
theorem ofText_agrees (h : Document.ofText t = .ok ds) (requests : ∀ d ∈ ds, d.IsRequest)
    (one : (Canonical.operations ds).length = 1) (visible : Visible t) :
    (∃ p, ofText t = .ok p ∧ p.Agrees ds) ↔ (∀ d ∈ ds, d.Undescribed) ∧ Spaced t := by
  constructor
  · rintro ⟨p, cut, agrees⟩
    have plain := agrees_undescribed cut agrees requests
    exact ⟨plain, spaced_of_agrees h requests visible plain cut agrees⟩
  · rintro ⟨plain, spaced⟩
    exact agrees_of_spaced h requests one visible plain spaced

theorem ofText_agrees_of_comment :
    let t := Text.ofString "query A \x7b ...F \x7d # c\nfragment F on T \x7b b \x7d"
    ∃ ds p, Document.ofText t = .ok ds ∧ ofText t = .ok p ∧ p.Agrees ds := by
  intro t
  have read : (Document.ofText t).toOption.isSome = true := by decide +kernel
  obtain ⟨ds, some_⟩ := Option.isSome_iff_exists.mp read
  have found : ∀ ds ∈ (Document.ofText t).toOption, (∀ d ∈ ds, d.IsRequest) ∧
      (Canonical.operations ds).length = 1 ∧ ∀ d ∈ ds, d.Undescribed := by
    decide +kernel
  obtain ⟨requests, one, plain⟩ := found ds some_
  have spaced : Spaced t := ⟨by decide +kernel, by decide +kernel⟩
  obtain ⟨p, cut, agrees⟩ :=
    (ofText_agrees (except_ok some_) requests one (by decide +kernel)).mpr ⟨plain, spaced⟩
  exact ⟨ds, p, except_ok some_, cut, agrees⟩

/-- A comment between `fragment` and the name is nothing to the grammar, but the name is not found. -/
theorem name_lost :
    let t := Text.ofString "query A \x7b ...F \x7d fragment # c\nF on T \x7b b \x7d"
    (∃ ds, Document.ofText t = .ok ds ∧ (∀ d ∈ ds, d.IsRequest) ∧
      (Canonical.operations ds).length = 1) ∧
      ofText t = .error (.unnamedFragment (Text.ofString "fragment # c\nF on T \x7b b \x7d")) := by
  intro t
  have read : (Document.ofText t).toOption.isSome = true := by decide +kernel
  obtain ⟨ds, some_⟩ := Option.isSome_iff_exists.mp read
  have found : ∀ ds ∈ (Document.ofText t).toOption,
      (∀ d ∈ ds, d.IsRequest) ∧ (Canonical.operations ds).length = 1 := by
    decide +kernel
  exact ⟨⟨ds, except_ok some_, found ds some_⟩, by decide +kernel⟩

end Parts

end ApprovedOps
