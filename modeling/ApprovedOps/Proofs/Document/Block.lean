import ApprovedOps.Document.Parts
import ApprovedOps.Proofs.Document.Gap

/-! # Blocks of a document

A block is well-formed if its brackets nest and it ends with the one brace that closes it. The walk
over the lexemes of a document enters such a block with its first lexeme and leaves it with the last;
whatever stands between opens nothing.
-/

namespace ApprovedOps.Parts

open Lexeme

/-- The closing brackets that are due after a lexeme, the next one first; none if it closes another
    one. -/
def nest (due : List Char) (l : Lexeme) : Option (List Char) :=
  if l.isMark '{' then some ('}' :: due)
  else if l.isMark '(' then some (')' :: due)
  else if l.isMark '[' then some (']' :: due)
  else if isClosing l then
    match due with
    | [] => none
    | c :: rest => if l.isMark c then some rest else none
  else some due

/-- A block of a document. -/
inductive Block where
  /-- `variables` and the text after it. -/
  | vars (body : Text)
  /-- An operation that begins with a keyword. -/
  | operation (keyword body : Text)
  /-- An operation that begins with its opening brace. -/
  | bare (body : Text)
  /-- `fragment`, blanks, the name of the fragment, and the text after it. -/
  | fragment (blanks name body : Text)

/-- The keywords of operations. -/
def IsKeyword (word : Text) : Prop :=
  word = Text.ofString "query" ∨ word = Text.ofString "mutation" ∨
    word = Text.ofString "subscription"

/-- A name: a letter or underscore, then letters, digits and underscores. -/
def IsName (name : Text) : Prop :=
  ∃ c cs, name = c :: cs ∧ c.isNameStart = true ∧ ∀ d ∈ cs, d.isNameContinue = true

namespace Block

/-- The text of a block. -/
def text : Block → Text
  | vars body => Text.ofString "variables" ++ body
  | operation keyword body => keyword ++ body
  | bare body => .char '{' :: body
  | fragment blanks name body => Text.ofString "fragment" ++ (blanks ++ (name ++ body))

/-- The region of a block. -/
def region : Block → Region
  | vars _ => .vars
  | operation _ _ | bare _ => .query
  | fragment _ _ _ => .fragment

/-- The lexemes of a block that stands alone, read strictly. -/
def lexemes (b : Block) : List Lexeme :=
  (scanWith Piece.strict 0 b.text).1

/-- Does a block begin with its opening brace? -/
def isBare : Block → Bool
  | bare _ => true
  | _ => false

/-- The lexeme that opens a block. -/
def first : Block → Lexeme
  | vars _ => ⟨.name, Text.ofString "variables", 0⟩
  | operation keyword _ => ⟨.name, keyword, 0⟩
  | bare _ => ⟨.mark, [.char '{'], 0⟩
  | fragment _ _ _ => ⟨.name, Text.ofString "fragment", 0⟩

/-- Is the keyword of an operation one, and is a fragment named? -/
def Headed : Block → Prop
  | operation keyword _ => IsKeyword keyword
  | fragment blanks name body =>
    blanks ≠ [] ∧ (∀ c ∈ blanks, c.isBlank = true) ∧ IsName name ∧ name ≠ Text.ofString "on" ∧
      ∀ c, body.head? = some c → c.isNameContinue = false
  | _ => True

/-- A block that is complete in itself. -/
structure WellFormed (b : Block) : Prop where
  /-- It begins as blocks do. -/
  headed : b.Headed
  starts : b.lexemes.head? = some b.first
  /-- No comment or string in it is left open. -/
  complete : (scanWith Piece.strict 0 b.text).2 = none
  /-- Its brackets nest. -/
  nested : b.lexemes.foldlM nest [] = some []
  /-- Its last code point is a closing brace, -/
  ends : b.text.getLast? = some closingBrace
  last : b.lexemes.getLast? = some (brace (b.text.length - 1))
  /-- and no other one closes all brackets. -/
  once : ∀ i < b.lexemes.length - 1, b.lexemes[i]?.any (·.isMark '}') = true →
    (b.lexemes.take (i + 1)).foldlM nest [] ≠ some []

theorem WellFormed.split {b : Block} (wf : b.WellFormed) :
    ∃ body before, b.text = body ++ [closingBrace] ∧ b.lexemes = before ++ [brace body.length] := by
  obtain ⟨body, text⟩ := List.getLast?_eq_some_iff.mp wf.ends
  obtain ⟨before, lexemes⟩ := List.getLast?_eq_some_iff.mp wf.last
  exact ⟨body, before, text, by simpa [text] using lexemes⟩

end Block

/-! ## Inside a block -/

@[simp] theorem isMark_shift (j : Nat) (l : Lexeme) (c : Char) :
    (l.shift j).isMark c = l.isMark c := rfl

@[simp] theorem nest_shift (due : List Char) (j : Nat) (l : Lexeme) :
    nest due (l.shift j) = nest due l := rfl

/-- Is the walk inside a block, with these brackets due? -/
structure Walk.Inside (w : Walk) (due : List Char) : Prop where
  opened : w.region ≠ .comment
  depth : w.depth = due.length
  /-- Not even between the keyword and the first bracket does it seem to be between blocks. -/
  within : w.depth = 0 → w.afterBrace = false

/-- Do two walks stand in the same region, with the same parts complete? -/
def Walk.Alike (w w' : Walk) : Prop :=
  w'.parts = w.parts ∧ w'.region = w.region ∧ w'.start = w.start

/-- Where brackets nest, it is enough to count them. -/
theorem count_depth {w : Walk} {due due' : List Char} {l : Lexeme} (depth : w.depth = due.length)
    (nested : nest due l = some due') : (w.count l).depth = due'.length := by
  unfold nest at nested
  grind [Walk.count, isOpening]

/-- No lexeme inside a block opens another one. -/
theorem step_inside {w : Walk} {due due' : List Char} {l : Lexeme} (t : Text)
    (inside : w.Inside due) (nested : nest due l = some due')
    (goesOn : l.isMark '}' = true → due' ≠ []) :
    ∃ w', w.step t l = .ok w' ∧ w'.Inside due' ∧ w.Alike w' := by
  obtain ⟨opened, depth, within⟩ := inside
  by_cases comment : l.kind = .comment
  · have same : due' = due := by
      simpa [nest, isClosing, isMark, comment, eq_comm] using nested
    subst same
    exact ⟨w, by simp [Walk.step, comment], ⟨opened, depth, within⟩, rfl, rfl, rfl⟩
  · have nothing : w.opened? l = none := by
      unfold Walk.opened?
      by_cases top : w.depth = 0
      · simp [top, opened, within top]
      · simp [top]
    refine ⟨w.count l, ?_, ⟨opened, ?_, ?_⟩, rfl, rfl, rfl⟩
    · rw [Walk.step, if_neg comment, Walk.enter, nothing]
      rfl
    · exact count_depth depth nested
    · intro top
      have closed : due' = [] := List.length_eq_zero_iff.mp ((count_depth depth nested).symm.trans top)
      exact Bool.eq_false_iff.mpr fun mark => goesOn mark closed

theorem run_inside {w : Walk} {due due' : List Char} {ls : List Lexeme} (t : Text) (k : Nat)
    (inside : w.Inside due) (nested : ls.foldlM nest due = some due')
    (goesOn : ∀ before l after, ls = before ++ l :: after → l.isMark '}' = true →
      (before ++ [l]).foldlM nest due ≠ some []) :
    ∃ w', (ls.map (shift k)).foldlM (Walk.step t) w = .ok w' ∧ w'.Inside due' ∧ w.Alike w' := by
  induction ls generalizing w due with
  | nil =>
      cases nested
      exact ⟨w, rfl, inside, rfl, rfl, rfl⟩
  | cons l ls ih =>
      rw [List.foldlM_cons] at nested
      obtain ⟨due₁, first, rest⟩ := Option.bind_eq_some_iff.mp nested
      have notLast : l.isMark '}' = true → due₁ ≠ [] := by
        rintro mark rfl
        exact goesOn [] l ls rfl mark (by simp [first])
      obtain ⟨w₁, step, inside₁, alike₁⟩ :=
        step_inside t inside ((nest_shift due k l).trans first) notLast
      obtain ⟨w', run, inside', alike'⟩ := ih inside₁ rest fun before l' after split mark closed =>
        goesOn (l :: before) l' after (by simp [split]) mark (by simpa [first] using closed)
      refine ⟨w', ?_, inside', alike'.1.trans alike₁.1, alike'.2.1.trans alike₁.2.1,
        alike'.2.2.trans alike₁.2.2⟩
      rw [List.map_cons, List.foldlM_cons, step]
      exact run

/-! ## Into a block and out of it -/

/-- Is the walk between blocks? -/
def Walk.Between (w : Walk) : Prop :=
  w.depth = 0 ∧ (w.region = .comment ∨ w.afterBrace = true)

/-- Has the walk just left a block that begins at an offset? -/
structure Walk.Left (w : Walk) (b : Block) (p : Parts) (k : Nat) : Prop where
  parts : w.parts = p
  region : w.region = b.region
  start : w.start = if b.region = .vars then k + b.first.text.length else k
  close : w.close = some (k + b.text.length)
  depth : w.depth = 0
  afterBrace : w.afterBrace = true

/-- Between blocks a keyword opens its region. -/
theorem opened?_keyword {w : Walk} {l : Lexeme} {region : Region} (between : w.Between)
    (keyword : Region.openedBy? l = some region) : w.opened? l = some region := by
  obtain ⟨top, comment | after⟩ := between
  · simp [Walk.opened?, top, comment, keyword]
  · by_cases comment : w.region = .comment
    · simp [Walk.opened?, top, comment, keyword]
    · simp [Walk.opened?, top, comment, after, keyword]

theorem first_opens {b : Block} {w : Walk} (headed : b.Headed) (between : w.Between)
    (bare : b.isBare = true → w.region = .comment) (j : Nat) :
    w.opened? (b.first.shift j) = some b.region := by
  have opened {word : Text} {region : Region} (keyword : Region.ofKeyword? word = some region) :
      w.opened? (shift j ⟨.name, word, 0⟩) = some region := opened?_keyword between keyword
  cases b with
  | vars body => exact opened rfl
  | operation keyword body =>
      obtain rfl | rfl | rfl := headed
      · exact opened rfl
      · exact opened rfl
      · exact opened rfl
  | bare body =>
      have comment := bare rfl
      have none : Region.openedBy? (shift j ⟨.mark, [.char '{'], 0⟩) = none := rfl
      have mark : isMark (shift j ⟨.mark, [.char '{'], 0⟩) '{' = true := rfl
      simp [Walk.opened?, between.1, comment, Block.first, Block.region, none, mark]
  | fragment blanks name body => exact opened rfl

theorem first_step {b : Block} {w : Walk} {t : Text} {parts : Parts} {k : Nat} {due : List Char}
    (headed : b.Headed) (between : w.Between) (bare : b.isBare = true → w.region = .comment)
    (flush : w.flush t k = .ok parts) (nested : nest [] b.first = some due) :
    ∃ w', w.step t (b.first.shift k) = .ok w' ∧ w'.Inside due ∧ w'.parts = parts ∧
      w'.region = b.region ∧
      w'.start = if b.region = .vars then k + b.first.text.length else k := by
  have kind : (b.first.shift k).kind ≠ .comment := by cases b <;> exact nofun
  have open_ : b.region ≠ .comment := by cases b <;> exact nofun
  have noBrace : b.first.isMark '}' = false := by cases b <;> rfl
  have enter : w.enter t (b.first.shift k) = .ok { w with
      parts, region := b.region
      start := if b.region = .vars then k + b.first.text.length else k
      close := none } := by
    simp only [Walk.enter, first_opens headed between bare k]
    have start : (b.first.shift k).start = k := by cases b <;> rfl
    rw [stop, start, flush]
    rfl
  have top : w.depth = ([] : List Char).length := between.1
  refine ⟨_, by rw [Walk.step, if_neg kind, enter]; rfl, ⟨open_, ?_, fun _ => noBrace⟩, rfl, rfl, rfl⟩
  exact count_depth top nested

/-- The last brace of a block is due, and nothing else is. -/
theorem last_step {w : Walk} {due : List Char} (t : Text) (inside : w.Inside due) (e k : Nat)
    (nested : nest due (brace e) = some []) :
    ∃ w', w.step t ((brace e).shift k) = .ok w' ∧ w.Alike w' ∧ w'.close = some (k + e + 1) ∧
      w'.depth = 0 ∧ w'.afterBrace = true := by
  have one : w.depth = 1 := by
    rw [inside.depth]
    cases due with
    | nil => cases nested
    | cons c rest =>
        have closes : nest (c :: rest) (brace e) = if (brace e).isMark c then some rest else none := rfl
        rw [closes] at nested
        split at nested <;> cases nested
        rfl
  have nothing : w.opened? ((brace e).shift k) = none := by simp [Walk.opened?, one]
  refine ⟨w.count ((brace e).shift k), ?_, ⟨rfl, rfl, rfl⟩, rfl, count_depth inside.depth nested, rfl⟩
  rw [Walk.step, if_neg nofun, Walk.enter, nothing]
  rfl

/-- The lexemes of a well-formed block are its first, those inside, and its closing brace. -/
theorem lexemes_split {b : Block} (wf : b.WellFormed) :
    ∃ mid e, b.lexemes = b.first :: (mid ++ [brace e]) ∧ b.text.length = e + 1 := by
  obtain ⟨body, before, text, lexemes⟩ := wf.split
  have starts := wf.starts
  cases before with
  | nil =>
      rw [lexemes] at starts
      have same : brace body.length = b.first := by simpa using starts
      cases b with
      | bare body => cases congrArg Lexeme.text same
      | _ => cases congrArg Lexeme.kind same
  | cons first mid =>
      obtain rfl : first = b.first := by simpa [lexemes] using starts
      exact ⟨mid, body.length, lexemes, by simp [text]⟩

/-- The walk passes through a well-formed block, from between blocks to between blocks. -/
theorem run_block {b : Block} {w : Walk} {t : Text} {p : Parts} {k : Nat} (wf : b.WellFormed)
    (between : w.Between) (bare : b.isBare = true → w.region = .comment)
    (flush : w.flush t k = .ok p) :
    ∃ w', (b.lexemes.map (shift k)).foldlM (Walk.step t) w = .ok w' ∧ w'.Left b p k := by
  obtain ⟨mid, e, lexemes, length⟩ := lexemes_split wf
  have nested := wf.nested
  rw [lexemes, List.foldlM_cons] at nested
  obtain ⟨due₁, nested₁, nested⟩ := Option.bind_eq_some_iff.mp nested
  rw [List.foldlM_append] at nested
  obtain ⟨due₂, nested₂, nested₃⟩ := Option.bind_eq_some_iff.mp nested
  have nested₃ : nest due₂ (brace e) = some [] := by simpa using nested₃
  have goesOn : ∀ before l after, mid = before ++ l :: after → l.isMark '}' = true →
      (before ++ [l]).foldlM nest due₁ ≠ some [] := by
    intro before l after split mark closed
    have whole : b.lexemes = (b.first :: before) ++ l :: (after ++ [brace e]) := by
      simp [lexemes, split]
    have early : ((b.first :: before) ++ [l]).foldlM nest [] = some [] := by
      rw [List.cons_append, List.foldlM_cons, nested₁]
      exact closed
    refine wf.once (b.first :: before).length (by simp [whole]) ?_ ?_
    · simp [whole, mark]
    · rw [← early, whole, List.take_length_add_append]
      rfl
  obtain ⟨w₁, step₁, inside₁, parts₁, region₁, start₁⟩ :=
    first_step wf.headed between bare flush nested₁
  obtain ⟨w₂, run₂, inside₂, parts₂, region₂, start₂⟩ := run_inside t k inside₁ nested₂ goesOn
  obtain ⟨w₃, step₃, ⟨parts₃, region₃, start₃⟩, close, depth, afterBrace⟩ :=
    last_step t inside₂ e k nested₃
  refine ⟨w₃, ?_, ?_, ?_, ?_, ?_, depth, afterBrace⟩
  · have run : (mid.map (shift k) ++ [(brace e).shift k]).foldlM (Walk.step t) w₁ = .ok w₃ := by
      rw [List.foldlM_append, run₂]
      change [(brace e).shift k].foldlM (Walk.step t) w₂ = .ok w₃
      rw [List.foldlM_cons, step₃]
      rfl
    rw [lexemes, List.map_cons, List.map_append, List.foldlM_cons, step₁]
    exact run
  · rw [parts₃, parts₂, parts₁]
  · rw [region₃, region₂, region₁]
  · rw [start₃, start₂, start₁]
  · rw [close, length, Nat.add_assoc]

end ApprovedOps.Parts
