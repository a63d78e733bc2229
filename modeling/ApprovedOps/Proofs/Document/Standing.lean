import ApprovedOps.Proofs.Document.Requests
import ApprovedOps.Proofs.Document.Names

/-! # Where definitions stand

The text from the keyword of an operation or a fragment to the brace that closes it is read as the
definition alone. When the walk leaves it, an operation becomes the query; a fragment is named, and
refused if anything but blanks stands between `fragment` and the name.
-/

namespace ApprovedOps

open Lexeme GraphQL

/-! ## What stands where -/

namespace GraphQL

/-- The token, if one begins here. -/
def Lexed.token? : Lexed → Option Token
  | .token t => some t
  | .broken _ => none

/-- The tokens of a text but for the last one, which is its end. -/
def Lexed.tokens (t : Text) : List Token :=
  ((Lexed.scan t).filterMap Lexed.token?).dropLast

/-- The tokens, cut behind each brace that closes all brackets. -/
def Token.blocks (due : List Char) : List Token → List (List Token)
  | [] => []
  | t :: ts =>
    match t.nest due with
    | none => [t] :: blocks [] ts
    | some due =>
      match blocks due ts with
      | [] => [[t]]
      | b :: bs => (t :: b) :: bs

theorem blocks_whole {inner us : List Token} {last : Token} {due : List Char}
    (nested : inner.foldlM Token.nest due = some ['}']) (closes : last.kind = Reader.mark '}') :
    Token.blocks due (inner ++ last :: us) = (inner ++ [last]) :: Token.blocks [] us := by
  induction inner generalizing due with
  | nil =>
      cases nested
      have refused : last.nest ['}'] = none := by
        rw [Token.nest.eq_def, closes]
        rfl
      rw [List.nil_append, Token.blocks, refused]
      rfl
  | cons t inner ih =>
      obtain ⟨due', first, rest⟩ := Option.bind_eq_some_iff.mp nested
      rw [List.cons_append, Token.blocks, first]
      simp only [ih rest]
      rfl

theorem blocks_flatten {d : Document} {tss : List (List Token)}
    (taken : List.Forall₂ Definition.Taken d tss) : Token.blocks [] tss.flatten = tss := by
  induction taken with
  | nil => rfl
  | cons taken _ ih =>
      obtain ⟨inner, last, rfl, nested, closes⟩ := taken.whole
      rw [List.flatten_cons, List.append_assoc, List.singleton_append, blocks_whole nested closes, ih]

/-- Is the definition a fragment? -/
def Definition.isFragment : Definition → Bool
  | .fragment .. => true
  | _ => false

/-- Does every comment of the walk hold no token of the grammar? -/
def Visible (t : Text) : Prop :=
  ∀ l ∈ (Lexeme.scan t).1, l.kind = .comment → ∀ u ∈ Lexed.tokens t,
    u.start < l.start ∨ l.stop ≤ u.start

/-- Are there only comments between the last of some tokens and the first of others? -/
def Follows (t : Text) (ts us : List Token) : Prop :=
  ∀ last ∈ ts.getLast?, ∀ first ∈ us.head?, ∀ l ∈ (Lexeme.scan t).1,
    last.start < l.start → l.start < first.start → l.kind = .comment

/-- Is there nothing but blanks between `fragment` and the token behind it? -/
def Headed (t : Text) : List Token → Prop
  | first :: second :: _ => first.word = .name "fragment" →
      ∀ l ∈ (Lexeme.scan t).1, ¬(first.start < l.start ∧ l.start < second.start)
  | _ => True

instance (t : Text) : Decidable (Visible t) :=
  inferInstanceAs (Decidable (∀ l ∈ (Lexeme.scan t).1, l.kind = .comment → ∀ u ∈ Lexed.tokens t,
    u.start < l.start ∨ l.stop ≤ u.start))

instance (t : Text) (ts us : List Token) : Decidable (Follows t ts us) :=
  inferInstanceAs (Decidable (∀ last ∈ ts.getLast?, ∀ first ∈ us.head?, ∀ l ∈ (Lexeme.scan t).1,
    last.start < l.start → l.start < first.start → l.kind = .comment))

instance (t : Text) : (ts : List Token) → Decidable (Headed t ts)
  | [] | [_] => inferInstanceAs (Decidable True)
  | first :: second :: _ => inferInstanceAs (Decidable (first.word = .name "fragment" →
      ∀ l ∈ (Lexeme.scan t).1, ¬(first.start < l.start ∧ l.start < second.start)))

/-- Are there only comments between the definitions of a text, and nothing but blanks behind its words
    `fragment`? -/
structure Spaced (t : Text) : Prop where
  between : (Token.blocks [] (Lexed.tokens t)).IsChain (Follows t)
  headed : ∀ ts ∈ Token.blocks [] (Lexed.tokens t), Headed t ts

end GraphQL


namespace Lexeme

/-- What is read where a lexeme stands. -/
theorem piece_at {k : Nat} {s : Text} {l : Lexeme} (among : l ∈ (scanWith Piece.of k s).1) :
    ∃ c r n, s.drop (l.start - k) = c :: r ∧ Piece.of c r = .lexeme l.kind n ∧
      l.text = c :: r.take n := by
  fun_induction scanWith Piece.of k s with
  | case1 => cases among
  | case2 k c r n found ih =>
      obtain ⟨d, r', m, place, piece, text⟩ := ih among
      have later := scan_start among
      refine ⟨d, r', m, ?_, piece, text⟩
      rw [drop_cons_sub c r (by omega), ← place, List.drop_drop]
      congr 1
      omega
  | case3 k c r kind n found rest failure split ih =>
      rw [split] at ih
      obtain rfl | later := List.mem_cons.mp among
      · exact ⟨c, r, n, by rw [Nat.sub_self, List.drop_zero], found, rfl⟩
      · obtain ⟨d, r', m, place, piece, text⟩ := ih later
        have place' : k + n + 1 ≤ l.start := by
          refine scan_start (s := r.drop n) ?_
          rw [split]
          exact later
        refine ⟨d, r', m, ?_, piece, text⟩
        rw [drop_cons_sub c r (by omega), ← place, List.drop_drop]
        congr 1
        omega
  | case4 => cases among

/-- Between two lexemes stand those that are listed there. -/
theorem between_gap {t : Text} {before gap after : List Lexeme} {l m : Lexeme}
    (whole : (scan t).1 = before ++ l :: (gap ++ m :: after)) (x : Lexeme) (among : x ∈ (scan t).1) :
    l.start < x.start ∧ x.start < m.start ↔ x ∈ gap := by
  have sorted : (scan t).1.Pairwise fun l l' => l.start < l'.start := scan_sorted 0 t
  rw [whole] at sorted among
  obtain ⟨-, second, first⟩ := List.pairwise_append.mp sorted
  obtain ⟨behind, second⟩ := List.pairwise_cons.mp second
  obtain ⟨-, last, third⟩ := List.pairwise_append.mp second
  constructor
  · rintro ⟨later, earlier⟩
    obtain here | rfl | here | rfl | here : x ∈ before ∨ x = l ∨ x ∈ gap ∨ x = m ∨ x ∈ after := by
      simpa using among
    · have place := first x here l List.mem_cons_self
      omega
    · omega
    · exact here
    · omega
    · have place := List.rel_of_pairwise_cons last here
      omega
  · intro here
    exact ⟨behind x (List.mem_append_left _ here), third x here m List.mem_cons_self⟩

end Lexeme

/-- Is the fragment the one that is defined, and its text the definition alone? -/
structure Fragment.Declares (f : Fragment) (d : Definition) : Prop where
  name : ∃ desc type ds ss, d = .fragment desc f.name type ds ss
  read : Document.ofText f.value = .ok [d]

namespace Parts

/-! ## Values of definitions -/

section

variable {t : Text} {d : Definition} {ts : List Token} {gap inside before after : List Lexeme}
  {opener close : Lexeme}

/-- Does a definition without a description stand in the text, with these tokens and lexemes? -/
structure Standing (t : Text) (d : Definition) (ts : List Token) (gap : List Lexeme)
    (opener : Lexeme) (inside : List Lexeme) (close : Lexeme) : Prop where
  tokens : ∃ front more, Lexed.scan t = front ++ (ts.map .token ++ more)
  placed : Placed ts gap opener inside close
  taken : d.Taken ts
  plain : d.Undescribed

theorem Standing.leads (stands : Standing t d ts gap opener inside close) : d.Leads ts :=
  stands.taken.leads stands.plain

theorem Standing.brace (stands : Standing t d ts gap opener inside close) :
    close = brace close.start := by
  obtain ⟨_, _, -, -, -, -, isBrace⟩ := stands.placed.nested stands.taken.whole
  exact isBrace

theorem Standing.stop (stands : Standing t d ts gap opener inside close) :
    close.stop = close.start + 1 := by
  rw [stands.brace]
  rfl

/-- The text of a definition has no blanks around it. -/
theorem Standing.trim (stands : Standing t d ts gap opener inside close)
    (whole : (scan t).1 = before ++ opener :: (inside ++ close :: after)) :
    (slice t opener.start close.stop).trim = slice t opener.start close.stop := by
  have among : Lexeme.brace close.start ∈ (scan t).1 := by
    rw [← stands.brace, whole]
    simp
  have before_ : opener.start ≤ close.start := by
    have later := stop_le_start whole (m := close) (by simp)
    exact Nat.le_trans (Nat.le_add_right _ _) later
  obtain ⟨body, rest, dropped, -, cut⟩ := slice_to_brace among before_
  obtain ⟨c, r, n, place, piece, -⟩ := piece_at (k := 0) (s := t) (l := opener)
    (by rw [← scan, whole]; simp)
  rw [Nat.sub_zero, dropped] at place
  rw [stands.stop, cut]
  exact trim_cut place (lexeme_not_blank piece)

/-- The text of a definition is read as the definition alone. -/
theorem Standing.read (stands : Standing t d ts gap opener inside close) :
    Document.ofText (slice t opener.start close.stop) = .ok [d] := by
  obtain ⟨first, mid, last, rfl, same, -, same'⟩ := stands.placed.tokens
  obtain ⟨front, more, scanned⟩ := stands.tokens
  have mark : last.kind = Reader.mark '}' := by
    refine (same'.mark _).mp ?_
    rw [stands.brace]
    rfl
  have scanned' : Lexed.scan t = front ++ ((first :: mid).map .token ++ .token last :: more) := by
    rw [scanned]
    simp
  have excerpt := scan_excerpt scanned' mark
  rw [stands.stop, same.start, same'.start]
  exact GraphQL.ofText_alone excerpt (stands.taken.again stands.plain)

theorem silent_unnamed {l : Lexeme} (silent : Silent l) : l.kind ≠ .name := by
  intro isName
  obtain comment | mark | mark := silent
  · cases isName.symm.trans comment
  · simp [isMark, isName] at mark
  · simp [isMark, isName] at mark

theorem aligned_head {u : Token} {l : Lexeme} {ls : List Lexeme} (isName : u.kind = .name)
    (h : Aligned (u :: ts) (l :: ls)) : Silent l ∧ (∃ m ∈ ls, u.Same m) ∨ u.Same l := by
  cases h with
  | silent silent rest =>
      obtain ⟨gap, m, ls', rfl, -, same, -⟩ := aligned_cons (by rw [isName]; nofun) rest
      exact .inl ⟨silent, m, by simp, same⟩
  | same same => exact .inr same
  | dots dots => cases isName.symm.trans dots

/-- Two names do not touch. -/
theorem names_apart {l m : Lexeme} (whole : (scan t).1 = before ++ l :: m :: after)
    (isName : l.kind = .name) (isName' : m.kind = .name) : slice t l.stop m.start ≠ [] := by
  intro touch
  obtain ⟨c, r, n, here, piece, -⟩ := piece_at (k := 0) (s := t) (l := m) (by rw [← scan, whole]; simp)
  obtain ⟨d, x, k, place, piece', text⟩ :=
    piece_at (k := 0) (s := t) (l := l) (by rw [← scan, whole]; simp)
  rw [Nat.sub_zero] at here place
  rw [isName] at piece'
  have stop : l.stop = l.start + k + 1 := by
    have all : k ≤ x.length := by
      rw [name_whole piece']
      exact (List.takeWhile_sublist _).length_le
    rw [Lexeme.stop, text, List.length_cons, List.length_take, Nat.min_eq_left all, Nat.add_assoc]
  have start : m.start = l.stop := by
    have some_ : m.start < t.length := by
      have long := congrArg List.length here
      rw [List.length_drop, List.length_cons] at long
      omega
    have later := stop_le_start whole (m := m) (by simp)
    have short := congrArg List.length touch
    rw [slice, List.length_drop, List.length_take, Nat.min_eq_left (Nat.le_of_lt some_)] at short
    exact Nat.le_antisymm (Nat.le_of_sub_eq_zero short) later
  rw [start, stop, drop_past place] at here
  have stops := name_boundary piece' c (by rw [here]; rfl)
  rw [nameStart_continues ((piece_name piece).mp isName')] at stops
  cases stops

/-- A fragment is named where its name comes right behind its keyword, and refused elsewhere. -/
theorem Standing.named {desc : Option Description} {n type : Text} {ds : List Directive}
    {ss : List Selection} (stands : Standing t (.fragment desc n type ds ss) ts gap opener inside close)
    (whole : (scan t).1 = before ++ opener :: (inside ++ close :: after)) :
    Headed t ts ∧ Fragment.nameOf (slice t opener.start close.stop) = .ok n ∨
      ¬Headed t ts ∧ ∀ x, Fragment.nameOf (slice t opener.start close.stop) ≠ .ok x := by
  obtain ⟨first, mid, last, rfl, same, aligned, same'⟩ := stands.placed.tokens
  obtain ⟨notOn, first', second, rest, split, word, name⟩ := stands.leads
  obtain ⟨rfl, behind⟩ := List.cons.inj split
  obtain ⟨isName, value⟩ := Prod.mk.inj name
  obtain ⟨l, more, lexemes⟩ : ∃ l more, inside ++ [close] = l :: more := by
    cases inside with
    | nil => exact ⟨close, [], rfl⟩
    | cons l inside => exact ⟨l, inside ++ [close], rfl⟩
  have rest_ : Aligned (second :: rest) (l :: more) := by
    rw [← behind, ← lexemes]
    exact aligned_snoc aligned same'
  have scanned : (scan t).1 = before ++ opener :: l :: (more ++ after) := by
    rw [whole, List.append_cons inside, lexemes]
    rfl
  have keyword : opener.text = Text.ofString "fragment" := by
    obtain ⟨kind, word⟩ := Prod.mk.inj word
    rw [same.text kind]
    exact word
  have among : Lexeme.brace close.start ∈ l :: (more ++ after) := by
    rw [← stands.brace, ← List.cons_append, ← lexemes]
    simp
  obtain ⟨blanks, c, r, k, all, piece, text, within, between, cut⟩ :=
    slice_opened scanned keyword among
  have declared := Fragment.declaredName?_lexeme all piece within
  rw [← cut, ← stands.stop, stands.trim whole] at declared
  obtain ⟨silent, m, later, same₂⟩ | same₂ := aligned_head isName rest_
  · refine .inr ⟨fun headed => ?_, fun x named => ?_⟩
    · obtain ⟨front, back, rfl⟩ := List.append_of_mem later
      have around : (scan t).1 = before ++ opener :: ((l :: front) ++ m :: (back ++ after)) := by
        rw [scanned]
        simp
      have inside_ := (between_gap around l (by rw [scanned]; simp)).mpr List.mem_cons_self
      rw [same.start, same₂.start] at inside_
      rw [behind] at headed
      exact headed word l (by rw [scanned]; simp) inside_
    · rw [Fragment.nameOf, declared, if_neg fun h => silent_unnamed silent h.2] at named
      cases named
  · have isName' := same₂.name.mpr isName
    refine .inl ⟨?_, ?_⟩
    · rw [behind]
      intro _ x among between_
      rw [← same.start, ← same₂.start] at between_
      have touching : (scan t).1 = before ++ opener :: ([] ++ l :: (more ++ after)) := scanned
      exact absurd ((between_gap touching x among).mp between_) (by simp)
    · have apart := names_apart scanned (stands.placed.keyword stands.leads).1 isName'
      rw [between] at apart
      rw [Fragment.nameOf, declared, if_pos ⟨apart, isName'⟩, ← text, same₂.text isName, value]
      exact if_neg notOn

/-- The walk that has just left a definition. -/
def Walk.leaving (p : Parts) (d : Definition) (opener close : Lexeme) : Walk :=
  ⟨p, regionOf d, opener.start, some close.stop, 0, true⟩

/-- Do the parts go on with those of the definitions? -/
structure Extends (p p' : Parts) (d : Document) : Prop where
  fragments : ∃ fs, p'.fragments = p.fragments ++ fs ∧
    List.Forall₂ Fragment.Declares fs (d.filter (·.isFragment))
  query : Canonical.operations d = [] ∧ p'.query = p.query ∨
    ∃ o, Canonical.operations d = [o] ∧ p.query = [] ∧ Document.ofText p'.query = .ok [.operation o]

theorem read_ne_nil {q : Text} {d : Document} (h : Document.ofText q = .ok d) : q ≠ [] := by
  have refused : (Document.ofText []).toOption.isNone = true := by decide +kernel
  rintro rfl
  rw [h] at refused
  cases refused

theorem operations_append (d d' : Document) :
    Canonical.operations (d ++ d') = Canonical.operations d ++ Canonical.operations d' :=
  List.filterMap_append

theorem Extends.trans {p p₁ p' : Parts} {d d' : Document} (first : p.Extends p₁ d)
    (second : p₁.Extends p' d') : p.Extends p' (d ++ d') := by
  obtain ⟨fs, fragments, declares⟩ := first.fragments
  obtain ⟨fs', fragments', declares'⟩ := second.fragments
  refine ⟨⟨fs ++ fs', by rw [fragments', fragments, List.append_assoc], ?_⟩, ?_⟩
  · rw [List.filter_append]
    exact List.rel_append declares declares'
  · rw [operations_append]
    obtain ⟨none_, same⟩ | ⟨o, one, room, read⟩ := first.query
    · rw [none_, List.nil_append, ← same]
      exact second.query
    · obtain ⟨none_, same⟩ | ⟨o', -, room', -⟩ := second.query
      · exact .inr ⟨o, by rw [one, none_, List.append_nil], room, by rw [same, read]⟩
      · exact absurd room' (read_ne_nil read)

/-- What a definition adds when the walk leaves it for the next one or for the end. -/
theorem Standing.flush (stands : Standing t d ts gap opener inside close)
    (whole : (scan t).1 = before ++ opener :: (inside ++ close :: after)) {p : Parts}
    (headed : Headed t ts) (room : d.isFragment = false → p.query = []) (k : Nat) :
    ∃ p', (Walk.leaving p d opener close).flush t k = .ok p' ∧ p.Extends p' [d] := by
  have value := stands.trim whole
  have read := stands.read
  cases d with
  | operation o =>
      refine ⟨{ p with query := slice t opener.start close.stop }, ?_, ⟨[], by simp, .nil⟩,
        .inr ⟨o, rfl, room rfl, read⟩⟩
      simp [Walk.flush, Walk.leaving, regionOf, value, room rfl]
  | fragment desc n type ds ss =>
      obtain ⟨-, named⟩ | ⟨unheaded, -⟩ := stands.named whole
      · refine ⟨{ p with fragments := p.fragments ++ [⟨n, slice t opener.start close.stop⟩] }, ?_,
          ⟨[⟨n, slice t opener.start close.stop⟩], rfl, .cons ⟨⟨_, _, _, _, rfl⟩, read⟩ .nil⟩,
          .inl ⟨rfl, rfl⟩⟩
        simp [Walk.flush, Walk.leaving, regionOf, value, named, bind, Except.bind, pure, Except.pure]
      · exact absurd headed unheaded
  | _ => exact stands.leads.elim

theorem Standing.flush_headed (stands : Standing t d ts gap opener inside close)
    (whole : (scan t).1 = before ++ opener :: (inside ++ close :: after)) {p p' : Parts} {k : Nat}
    (h : (Walk.leaving p d opener close).flush t k = .ok p') : Headed t ts := by
  cases d with
  | operation o =>
      obtain ⟨kind, first, rest, rfl, word⟩ := stands.leads
      cases rest with
      | nil => trivial
      | cons second rest =>
          intro fragment
          have same := (Prod.mk.inj (word.symm.trans fragment)).2
          cases kind <;> exact absurd same (by decide)
  | fragment desc n type ds ss =>
      obtain ⟨headed, -⟩ | ⟨-, unnamed⟩ := stands.named whole
      · exact headed
      · obtain ⟨x, named, -⟩ := except_bind_ok h
        change Fragment.nameOf (slice t opener.start close.stop).trim = .ok x at named
        rw [stands.trim whole] at named
        exact absurd named (unnamed x)
  | _ => exact stands.leads.elim

end

end Parts

end ApprovedOps
