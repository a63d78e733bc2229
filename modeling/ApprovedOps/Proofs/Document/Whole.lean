import Mathlib.Data.List.Basic
import ApprovedOps.Proofs.Document.Block

/-! # Whole documents

A document is a lead of blanks and comments and then well-formed blocks, each with a gap after it.
Such a document is cut into exactly these parts, whatever order the blocks come in and whatever stands
in their strings and comments.
-/

namespace ApprovedOps

namespace Parts

open Lexeme

/-! ## Values -/

theorem slice_middle (front mid rest : Text) :
    slice (front ++ (mid ++ rest)) front.length (front.length + mid.length) = mid := by
  rw [slice, ← List.append_assoc, ← List.length_append, List.take_left, List.drop_left]

theorem trim_eq_self {c d : CodePoint} {s body : Text} (starts : s = c :: body)
    (front : c.isBlank = false) (ends : ∃ x, s = x ++ [d]) (back : d.isBlank = false) :
    s.trim = s := by
  obtain ⟨x, rfl⟩ := ends
  have left : Text.trimLeft (x ++ [d]) = x ++ [d] := by
    rw [starts, Text.trimLeft, List.dropWhile_cons, front]
    rfl
  rw [Text.trim, left, Text.trimRight, List.reverse_append, List.reverse_singleton,
    List.singleton_append, List.dropWhile_cons, back]
  simp

theorem isNameStart_not_blank {c : CodePoint} (h : c.isNameStart = true) : c.isBlank = false := by
  cases c with
  | surrogate offset => cases h
  | char c =>
      have range : 65 ≤ c.toNat ∧ c.toNat ≤ 122 := by
        change (decide (c.val ≥ 65 ∧ c.val ≤ 90) || (decide (c.val ≥ 97) && decide (c.val ≤ 122)) ||
          c == '_') = true at h
        simp only [Bool.or_eq_true, Bool.and_eq_true, decide_eq_true_eq, beq_iff_eq, ge_iff_le,
          UInt32.le_iff_toNat_le] at h
        obtain (⟨low, high⟩ | ⟨low, high⟩) | rfl := h
        · exact ⟨low, Nat.le_trans high (by decide)⟩
        · exact ⟨Nat.le_trans (by decide) low, high⟩
        · decide
      obtain ⟨low, high⟩ := range
      grind [CodePoint.isBlank, CodePoint.value]

theorem block_trim {b : Block} (wf : b.WellFormed) : b.text.trim = b.text := by
  obtain ⟨body, before, text, -⟩ := wf.split
  have back : closingBrace.isBlank = false := by decide
  have headed := wf.headed
  cases b with
  | vars rest => exact trim_eq_self (c := .char 'v') rfl (by decide) ⟨body, text⟩ back
  | operation keyword rest =>
      obtain rfl | rfl | rfl := headed
      · exact trim_eq_self (c := .char 'q') rfl (by decide) ⟨body, text⟩ back
      · exact trim_eq_self (c := .char 'm') rfl (by decide) ⟨body, text⟩ back
      · exact trim_eq_self (c := .char 's') rfl (by decide) ⟨body, text⟩ back
  | bare rest => exact trim_eq_self (c := .char '{') rfl (by decide) ⟨body, text⟩ back
  | fragment blanks name rest =>
      exact trim_eq_self (c := .char 'f') rfl (by decide) ⟨body, text⟩ back

theorem dropPrefix_append (start rest : Text) :
    Text.dropPrefix? (start ++ rest) start = some rest :=
  List.isPrefixOf?_eq_some_iff_append_eq.mpr rfl

/-- The name that a well-formed fragment declares. -/
theorem nameOf_fragment {blanks name body : Text}
    (headed : (Block.fragment blanks name body).Headed) :
    Fragment.nameOf (Block.fragment blanks name body).text = .ok name := by
  obtain ⟨some_, blank, ⟨c, cs, rfl, start, continue_⟩, notOn, stops⟩ := headed
  have trimmed : Text.trimLeft (Block.fragment blanks (c :: cs) body).text =
      Text.ofString "fragment" ++ (blanks ++ (c :: cs ++ body)) := rfl
  have rest : Text.trimLeft (blanks ++ (c :: cs ++ body)) = c :: (cs ++ body) := by
    rw [Text.trimLeft, List.dropWhile_append_of_pos blank, List.cons_append, List.dropWhile_cons,
      isNameStart_not_blank start]
    rfl
  have name : (cs ++ body).takeWhile CodePoint.isNameContinue = cs := takeWhile_bounded continue_ stops
  have spaced : (blanks ++ (c :: cs ++ body)).head?.any CodePoint.isBlank = true := by
    cases blanks with
    | nil => exact absurd rfl some_
    | cons d blanks => simpa using blank d List.mem_cons_self
  have declared : Fragment.declaredName? (Block.fragment blanks (c :: cs) body).text =
      some (c :: cs) := by
    simp only [Fragment.declaredName?, trimmed, dropPrefix_append, rest, spaced, start, name,
      Bool.and_self, if_true]
  simp only [Fragment.nameOf, declared, notOn, if_false]

/-! ## Blocks one after the other -/

namespace Block

/-- The variables of a block. -/
def variables? : Block → Option Text
  | vars body => some body.trim
  | _ => none

/-- The operation of a block. -/
def operation? (b : Block) : Option Text :=
  if b.region = .query then some b.text else none

/-- The fragment of a block. -/
def fragment? (b : Block) : Option Fragment :=
  match b with
  | fragment _ name _ => some ⟨name, b.text⟩
  | _ => none

end Block

/-- The parts with a block added. -/
def add (p : Parts) (b : Block) : Parts :=
  { p with
    vars := b.variables?.getD p.vars
    query := b.operation?.getD p.query
    fragments := p.fragments ++ b.fragment?.toList }

/-- Blocks one after the other, with a gap after each. -/
inductive Blocks : List Block → Text → Prop where
  | nil : Blocks [] []
  | cons {b bs gap rest} : b.WellFormed → Gap bs.isEmpty gap → Blocks bs rest →
      Blocks (b :: bs) (b.text ++ (gap ++ rest))

/-- After the last block and its gap the document ends. -/
theorem Blocks.ended {bs : List Block} {rest : Text} (blocks : Blocks bs rest)
    (last : bs.isEmpty = true) : rest = [] := by
  cases blocks with
  | nil => rfl
  | cons => cases last

/-- What a block is worth is settled when the walk leaves it. -/
theorem left_flush {b : Block} {w : Walk} {p : Parts} {front rest : Text}
    (left : w.Left b p front.length) (wf : b.WellFormed)
    (room : b.region = .query → p.query = []) (stop : Nat) :
    w.flush (front ++ (b.text ++ rest)) stop = .ok (p.add b) := by
  obtain ⟨parts, region, start, close, -, -⟩ := left
  have value : b.region ≠ .vars →
      (slice (front ++ (b.text ++ rest)) w.start (front.length + b.text.length)).trim = b.text := by
    intro notVars
    rw [start, if_neg notVars, slice_middle, block_trim wf]
  cases b with
  | vars body =>
      have inner : slice (front ++ ((Block.vars body).text ++ rest)) w.start
          (front.length + (Block.vars body).text.length) = body := by
        have whole := slice_middle (front ++ Text.ofString "variables") body rest
        have isVars : (Block.vars body).region = .vars := rfl
        rw [start, if_pos isVars]
        simpa [Block.text, Block.first, Nat.add_assoc] using whole
      simp only [Walk.flush, region, close, inner, Block.region, parts]
      simp [add, Block.variables?, Block.operation?, Block.fragment?, Block.region]
  | operation keyword body | bare body =>
      have empty := room rfl
      have value := value fun isVars => by cases isVars
      simp only [Walk.flush, region, close, Block.region, parts, empty, value]
      simp [add, Block.variables?, Block.operation?, Block.fragment?, Block.region]
  | fragment blanks name body =>
      have value := value fun isVars => by cases isVars
      simp only [Walk.flush, region, close, Block.region, parts, value, nameOf_fragment wf.headed]
      simp [add, Block.variables?, Block.operation?, Block.fragment?, Block.region, bind, pure,
        Except.bind, Except.pure]

/-- A well-formed block has its own lexemes wherever it stands. -/
theorem scan_block {b : Block} (wf : b.WellFormed) (k : Nat) (t : Text) :
    scanWith Piece.of k (b.text ++ t) =
      (b.lexemes.map (shift k) ++ (scanWith Piece.of (k + b.text.length) t).1,
        (scanWith Piece.of (k + b.text.length) t).2) := by
  obtain ⟨body, before, text, lexemes⟩ := wf.split
  have strict : scanWith Piece.strict 0 (body ++ [closingBrace]) =
      (before ++ [brace body.length], none) := by
    rw [← text]
    exact Prod.ext lexemes wf.complete
  have context := scan_context (Nat.zero_add _).symm strict k t
  rw [text, List.append_assoc, List.singleton_append, lexemes, List.length_append,
    List.length_singleton, ← Nat.add_assoc]
  exact context

/-- Comments are passed over. -/
theorem run_comments {comments : List Lexeme} (all : ∀ l ∈ comments, l.kind = .comment) (t : Text)
    (w : Walk) : comments.foldlM (Walk.step t) w = .ok w := by
  induction comments with
  | nil => rfl
  | cons l comments ih =>
      have step : w.step t l = .ok w := if_pos (all l List.mem_cons_self)
      rw [List.foldlM_cons, step]
      exact ih fun l' member => all l' (List.mem_cons_of_mem l member)

/-- How many operations are complete. -/
def operations (p : Parts) : Nat :=
  if p.query = [] then 0 else 1

/-- An operation can be added where there is none, and then there is one. -/
theorem operations_add {p : Parts} {b : Block} {bs : List Block}
    (single : p.operations + ((b :: bs).filterMap Block.operation?).length ≤ 1) :
    (b.region = .query → p.query = []) ∧
      (p.add b).operations + (bs.filterMap Block.operation?).length ≤ 1 := by
  by_cases isQuery : b.region = .query
  · have here : b.operation? = some b.text := if_pos isQuery
    rw [List.filterMap_cons_some here, List.length_cons] at single
    have none : p.operations = 0 := by omega
    have atMost : (p.add b).operations ≤ 1 := by
      unfold operations
      split <;> omega
    refine ⟨fun _ => ?_, by omega⟩
    unfold operations at none
    split at none
    · assumption
    · cases none
  · have elsewhere : b.operation? = none := if_neg isQuery
    rw [List.filterMap_cons_none elsewhere] at single
    have same : (p.add b).operations = p.operations := by simp [operations, add, elsewhere]
    exact ⟨fun h => absurd h isQuery, by rwa [same]⟩

/-- The walk passes through blocks one after the other and keeps what they are worth. -/
theorem run_blocks {bs : List Block} {rest : Text} (blocks : Blocks bs rest) {t front : Text}
    {w : Walk} {p : Parts} (text : t = front ++ rest) (between : w.Between)
    (bare : w.region = .comment ∨ ∀ b ∈ bs, b.isBare = false)
    (later : ∀ b ∈ bs.tail, b.isBare = false) (flush : w.flush t front.length = .ok p)
    (single : p.operations + (bs.filterMap Block.operation?).length ≤ 1) :
    ∃ w', (scanWith Piece.of front.length rest).1.foldlM (Walk.step t) w = .ok w' ∧
      (scanWith Piece.of front.length rest).2 = none ∧
      w'.flush t t.length = .ok (bs.foldl add p) := by
  induction blocks generalizing front w p with
  | nil =>
      rw [List.append_nil] at text
      subst text
      exact ⟨w, by simp [pure, Except.pure], by simp, flush⟩
  | @cons b bs gap rest wf gapped blocks ih =>
      obtain ⟨room, single₁⟩ := operations_add single
      have mayBeBare : b.isBare = true → w.region = .comment := by
        intro isBare
        obtain comment | none := bare
        · exact comment
        · simp [none b List.mem_cons_self] at isBare
      obtain ⟨w₁, run₁, left⟩ := run_block wf between mayBeBare flush
      obtain ⟨comments, all, gapScan⟩ := passes_gap gapped blocks.ended (front.length + b.text.length)
      have front₁ : t = (front ++ b.text ++ gap) ++ rest := by simp [text]
      have flush₁ : w₁.flush t (front ++ b.text ++ gap).length = .ok (p.add b) := by
        rw [text]
        exact left_flush left wf room _
      obtain ⟨w₂, run₂, complete, flush₂⟩ := ih front₁ ⟨left.depth, .inr left.afterBrace⟩
        (.inr later) (fun b' member => later b' (List.mem_of_mem_tail member)) flush₁ single₁
      rw [List.length_append, List.length_append] at run₂ complete
      rw [scan_block wf, gapScan]
      refine ⟨w₂, ?_, complete, flush₂⟩
      rw [List.foldlM_append, run₁]
      change (comments ++ _).foldlM (Walk.step t) w₁ = _
      rw [List.foldlM_append, run_comments all]
      exact run₂

/-- What blocks are worth, one kind of part at a time. -/
theorem foldl_add (bs : List Block) (p : Parts) :
    bs.foldl add p =
      { comment := p.comment
        vars := (bs.filterMap Block.variables?).getLast?.getD p.vars
        query := (bs.filterMap Block.operation?).getLast?.getD p.query
        fragments := p.fragments ++ bs.filterMap Block.fragment? } := by
  induction bs generalizing p with
  | nil => simp
  | cons b bs ih =>
      rw [List.foldl_cons, ih]
      simp only [add, List.filterMap_cons]
      cases b.variables? <;> cases b.operation? <;> cases b.fragment? <;>
        simp [List.getLast?_cons]

theorem getLast?_of_atMostOne {α : Type} {l : List α} (h : l.length ≤ 1) : l.getLast? = l.head? := by
  match l, h with
  | [], _ => rfl
  | [_], _ => rfl

/-- A document whose lead and blocks are complete is cut into its parts: the lead without the blanks
    around it, the variables without their keyword, the operation, and the fragments in order. -/
theorem ofText_whole {lead rest : Text} {bs : List Block} (led : Gap bs.isEmpty lead)
    (blocks : Blocks bs rest) (bare : ∀ b ∈ bs.tail, b.isBare = false)
    (oneOperation : (bs.filterMap Block.operation?).length ≤ 1)
    (oneVariables : (bs.filterMap Block.variables?).length ≤ 1) :
    ofText (lead ++ rest) = .ok {
      comment := lead.trim
      vars := (bs.findSome? Block.variables?).getD []
      query := (bs.findSome? Block.operation?).getD []
      fragments := bs.filterMap Block.fragment? } := by
  obtain ⟨comments, all, leadScan⟩ := passes_gap led blocks.ended 0
  have flush : Walk.flush {} (lead ++ rest) lead.length = .ok { comment := lead.trim } := by
    simp [Walk.flush, slice]
  obtain ⟨w, run, complete, flushed⟩ := run_blocks blocks rfl ⟨rfl, .inl rfl⟩ (.inl rfl) bare flush
    (by simpa [operations] using oneOperation)
  rw [Nat.zero_add] at leadScan
  have lexemes : (scan (lead ++ rest)).1.foldlM (Walk.step (lead ++ rest)) {} = .ok w := by
    rw [scan, leadScan, List.foldlM_append, run_comments all]
    exact run
  have failure : (scan (lead ++ rest)).2 = none := by rw [scan, leadScan, complete]
  have parts : ofText (lead ++ rest) = .ok (bs.foldl add { comment := lead.trim }) := by
    simp only [ofText, lexemes, failure, bind, Except.bind, flushed]
  rw [parts, foldl_add, getLast?_of_atMostOne oneOperation, getLast?_of_atMostOne oneVariables,
    List.head?_filterMap, List.head?_filterMap, List.nil_append]

/-- A fragment, variables and an operation. -/
def mixedBlocks : List Block :=
  [.fragment " " "F" " on T \x7b query \x7d", .vars " \x7b\"a\": 1\x7d",
    .operation "query" " Q\x7bq(s:\"\"\"\x7d\"\"\")\x7d"]

/-- Keywords, quotes and braces inside comments, strings and selections do not count, and the blocks
    may come in any order. -/
theorem ofText_whole_of_mixed :
    ofText (Text.ofString "# query\nfragment F on T \x7b query \x7d" ++
        Text.ofString "variables \x7b\"a\": 1\x7dquery Q\x7bq(s:\"\"\"\x7d\"\"\")\x7d // \x7d") = .ok {
      comment := "# query"
      vars := "\x7b\"a\": 1\x7d"
      query := "query Q\x7bq(s:\"\"\"\x7d\"\"\")\x7d"
      fragments := [⟨"F", "fragment F on T \x7b query \x7d"⟩] } := by
  have fragment : (Block.fragment " " "F" " on T \x7b query \x7d").WellFormed :=
    ⟨⟨by decide, by decide, ⟨.char 'F', [], by decide⟩, by decide, by decide⟩, by decide +kernel,
      by decide +kernel, by decide +kernel, by decide +kernel, by decide +kernel, by decide +kernel⟩
  have vars : (Block.vars " \x7b\"a\": 1\x7d").WellFormed :=
    ⟨trivial, by decide +kernel, by decide +kernel, by decide +kernel, by decide +kernel,
      by decide +kernel, by decide +kernel⟩
  have query : (Block.operation "query" " Q\x7bq(s:\"\"\"\x7d\"\"\")\x7d").WellFormed :=
    ⟨.inl rfl, by decide +kernel, by decide +kernel, by decide +kernel, by decide +kernel,
      by decide +kernel, by decide +kernel⟩
  have led : Gap mixedBlocks.isEmpty ([.char '#'] ++ Text.ofString " query" ++ [.char '\n']) :=
    .line (.inl rfl) (by decide) .nil
  have last : Gap true (.char ' ' :: ([.char '/', .char '/'] ++ Text.ofString " \x7d")) :=
    .blank (by decide) (.lastLine (.inr rfl) (by decide))
  have blocks : Blocks mixedBlocks _ := .cons fragment .nil (.cons vars .nil (.cons query last .nil))
  have whole := ofText_whole led blocks (by decide) (by decide) (by decide +kernel)
  exact (congrArg ofText (by decide +kernel)).trans (whole.trans (congrArg Except.ok (by decide +kernel)))

end Parts

end ApprovedOps
