import ApprovedOps.Proofs.GraphQL.Blocks

/-! # What readers return

A property of what a reader returns whenever it succeeds, given that the tokens in front of it are
well-formed: names are names, numbers are numbers, and strings hold what can be written again.
-/

namespace ApprovedOps

namespace GraphQL

open Reader (mark)

/-! ## Well-formed words -/

/-- Is the value of the word one of its kind, and can it be written again? -/
def Word.Sound (w : Word) : Prop :=
  match w.1 with
  | .name => w.2.isName = true
  | .int => IsNumber false w.2
  | .float => IsNumber true w.2
  | .string => w.2.Scalar
  | .blockString => BlockString.IsContent w.2 ∧ BlockString.IsSteady w.2
  | .mark _ | .eof => True

/-- Are all words well-formed? -/
def Sound (ws : List Word) : Prop :=
  ∀ w ∈ ws, w.Sound

@[simp]
theorem sound_nil : Sound [] :=
  List.forall_mem_nil _

@[simp]
theorem sound_cons {w : Word} {ws : List Word} : Sound (w :: ws) ↔ w.Sound ∧ Sound ws :=
  List.forall_mem_cons

@[simp]
theorem sound_append {ws us : List Word} : Sound (ws ++ us) ↔ Sound ws ∧ Sound us :=
  List.forall_mem_append

@[simp]
theorem sound_flatMap {α : Type} {xs : List α} {words : α → List Word} :
    Sound (xs.flatMap words) ↔ ∀ x ∈ xs, Sound (words x) := by
  simp only [Sound, List.mem_flatMap]
  exact ⟨fun h x among w inside => h w ⟨x, among, inside⟩,
    fun h w ⟨x, among, inside⟩ => h x among w inside⟩

@[simp]
theorem mark_sound (c : Char) : (Word.mark c).Sound :=
  trivial

@[simp]
theorem dots_sound : Word.dots.Sound :=
  trivial

@[simp]
theorem name_sound {n : Text} : (Word.name n).Sound ↔ n.isName = true :=
  Iff.rfl

@[simp]
theorem sound_enclosed {opening close : Char} {ws : List Word} :
    Sound (enclosed opening close ws) ↔ Sound ws := by
  simp [enclosed]

@[simp]
theorem sound_optionally {opening close : Char} {ws : List Word} :
    Sound (optionally opening close ws) ↔ Sound ws := by
  rw [optionally]
  split
  next empty => simp [empty]
  next => exact sound_enclosed

/-! ## Tokens -/

theorem scalar_isScalar {n : Nat} (h : Literal.isScalar n = true) :
    (Literal.scalar n).isScalar = true := by
  simp only [Literal.isScalar, Bool.or_eq_true, Bool.and_eq_true, decide_eq_true_eq] at h
  have valid : n.isValidChar := h.imp_right fun high => ⟨high.1, high.2⟩
  rw [Literal.scalar, CodePoint.ofNat?, dif_pos valid]
  rfl

theorem braced_scalar {digits number m : Nat} {t : Text} {p : CodePoint}
    (h : Literal.braced digits number t = .ok (p, m)) : p.isScalar = true := by
  induction t generalizing digits number with
  | nil => cases h
  | cons c r ih =>
      rw [Literal.braced] at h
      split at h
      next =>
        split at h
        next => cases h
        next valid =>
          cases h
          exact scalar_isScalar (by simpa using (not_or.mp valid).2)
      next =>
        split at h
        next => exact ih h
        next => cases h

theorem surrogatePair_isScalar {high low : Nat} (lead : high < 0xDC00) (trail : low < 0xE000) :
    Literal.isScalar (0x10000 + (high - 0xD800) * 0x400 + (low - 0xDC00)) = true := by
  simp only [Literal.isScalar, Bool.or_eq_true, Bool.and_eq_true, decide_eq_true_eq]
  omega

theorem fourDigitEscape_scalar {r : Text} {p : CodePoint} {n : Nat}
    (h : Literal.fourDigitEscape r = some (p, n)) : p.isScalar = true := by
  rw [Literal.fourDigitEscape] at h
  obtain ⟨high, -, h⟩ := Option.bind_eq_some_iff.mp h
  by_cases valid : Literal.isScalar high = true
  · rw [if_pos valid] at h
    cases h
    exact scalar_isScalar valid
  · rw [if_neg valid] at h
    by_cases lead : high < 0xDC00 ∧ Text.startsWith (r.drop 4) [.char '\\', .char 'u'] = true
    · rw [if_pos lead] at h
      obtain ⟨low, -, h⟩ := Option.bind_eq_some_iff.mp h
      by_cases trail : 0xDC00 ≤ low ∧ low < 0xE000
      · rw [if_pos trail] at h
        obtain ⟨rfl, -⟩ := Prod.mk.inj (Option.some.inj h)
        exact scalar_isScalar (surrogatePair_isScalar lead.1 trail.2)
      · rw [if_neg trail] at h
        cases h
    · rw [if_neg lead] at h
      cases h

theorem escapeLetter_scalar {c p : CodePoint} (h : Literal.escapeLetter? c = some p) :
    p.isScalar = true := by
  rw [Literal.escapeLetter?] at h
  split at h
  next letter =>
    cases h
    obtain rfl | rfl | rfl := letter <;> rfl
  next =>
    repeat' split at h
    all_goals cases h
    all_goals rfl

theorem escape_scalar {s : Text} {p : CodePoint} {n : Nat} (h : Literal.escape s = .ok (p, n)) :
    p.isScalar = true := by
  rw [Literal.escape.eq_def] at h
  split at h
  next => cases h
  next c r =>
    split at h
    next =>
      split at h
      next =>
        split at h
        next found =>
          cases h
          exact braced_scalar found
        next => cases h
      next =>
        split at h
        next found =>
          cases h
          exact fourDigitEscape_scalar found
        next => cases h
    next =>
      split at h
      next found =>
        cases h
        exact escapeLetter_scalar found
      next => cases h

theorem string_scalar {s content : Text} {n : Nat} (h : Literal.string s = .ok (content, n)) :
    content.Scalar := by
  fun_induction Literal.string s generalizing content n with
  | case2 =>
      cases h
      exact Text.scalar_nil
  | case4 r p m escaped value k read _ ih =>
      cases h
      exact Text.scalar_cons.mpr ⟨escape_scalar escaped, ih read⟩
  | case8 r c value m read _ _ _ ih =>
      cases h
      exact Text.scalar_cons.mpr ⟨rfl, ih read⟩
  | case1 | case3 | case5 | case6 | case7 | case9 => cases h

/-- What is read as a token is well-formed. -/
theorem tokenAt_sound {c : CodePoint} {r : Text} {kind : TokenKind} {v : Text} {n : Nat}
    (h : Lexed.tokenAt c r = .ok (kind, v, n))
    (steady : kind = .blockString → BlockString.IsSteady v) : Word.Sound (kind, v) := by
  have name := (tokenAt_kind h).2
  unfold Lexed.tokenAt at h
  split at h
  · split at h
    · obtain ⟨⟨value, m⟩, read, h⟩ := except_bind_ok h
      cases h
      exact ⟨BlockString.blockString_ok (after_ok read), steady rfl⟩
    · obtain ⟨⟨value, m⟩, read, h⟩ := except_bind_ok h
      cases h
      exact string_scalar (after_ok read)
  split at h
  · cases h
    trivial
  split at h
  · obtain ⟨⟨isFloat, m⟩, read, h⟩ := except_bind_ok h
    obtain ⟨d, rest, text, rfl, number, -⟩ := number_ok read
    dsimp only at h
    rw [text, List.take_left] at h
    cases h
    cases isFloat <;> exact number
  split at h
  · cases h
    exact name rfl
  split at h
  · cases found : Lexed.dots r with
    | error e => simp [found] at h
    | ok p =>
        simp only [found] at h
        cases h
        rw [dots_kind found]
        trivial
  split at h
  · cases h
  split at h <;> cases h

/-- Is it no block string that holds what cannot be written again? -/
def Lexed.IsSteady : Lexed → Prop
  | .token t => t.kind = .blockString → BlockString.IsSteady t.value
  | .broken _ => True

/-- Are all tokens well-formed? -/
def Lexed.Sound (ls : List Lexed) : Prop :=
  ∀ t, .token t ∈ ls → t.word.Sound

theorem scanFrom_sound (k : Nat) (s : Text) (steady : ∀ l ∈ Lexed.scanFrom k s, l.IsSteady) :
    Lexed.Sound (Lexed.scanFrom k s) := by
  fun_induction Lexed.scanFrom k s with
  | case1 k =>
      intro t among
      cases List.mem_singleton.mp among
      trivial
  | case2 k c r ignored ih => exact ih steady
  | case3 k r n ignored ih => exact ih steady
  | case4 k c r ignored plain kind v n found ih =>
      intro t among
      obtain same | later := List.mem_cons.mp among
      · cases same
        exact tokenAt_sound found fun block => steady _ List.mem_cons_self block
      · exact ih (fun u inside => steady u (List.mem_cons_of_mem _ inside)) t later
  | case5 =>
      intro t among
      cases List.mem_singleton.mp among

/-! ## Readers -/

variable {α β : Type} {r : Reader α} {f : α → Reader β} {P : α → Prop} {Q : β → Prop}

/-- Does the property hold of what the reader returns, whenever it succeeds among well-formed tokens?
    It leaves well-formed tokens. -/
def Yields (r : Reader α) (P : α → Prop) : Prop :=
  ∀ ⦃s x s'⦄, Lexed.Sound s.lexed → r s = .ok (x, s') → P x ∧ Lexed.Sound s'.lexed

theorem yields_mono {P' : α → Prop} (h : Yields r P) (weaker : ∀ x, P x → P' x) : Yields r P' :=
  fun _ _ _ sound run => (h sound run).imp_left (weaker _)

theorem yields_pure {x : α} (h : P x) : Yields (pure x) P := by
  intro s y s' sound run
  cases run
  exact ⟨h, sound⟩

theorem yields_bind (first : Yields r P) (second : ∀ x, P x → Yields (f x) Q) :
    Yields (r >>= f) Q := by
  intro s y s' sound run
  obtain ⟨x, s₁, run₁, run₂⟩ := bind_ok run
  obtain ⟨p, sound₁⟩ := first sound run₁
  exact second x p sound₁ run₂

theorem yields_fail (t : Token) (problem : Problem) : Yields (Reader.fail t problem) P := by
  intro s y s' _ run
  cases run

theorem yields_unexpected (t : Token) : Yields (Reader.unexpected t) P :=
  yields_fail t _

theorem yields_current {f : Token → Reader β} (h : ∀ t, t.word.Sound → Yields (f t) Q) :
    Yields (Reader.current >>= f) Q :=
  fun s _ _ sound run => h s.current (sound s.current List.mem_cons_self) sound run

theorem yields_advance : Yields Reader.advance fun _ => True := by
  rintro ⟨t, rest⟩ _ s' sound run
  cases rest with
  | nil =>
      cases run
      exact ⟨trivial, sound⟩
  | cons l rest =>
      cases l with
      | token t' =>
          cases run
          exact ⟨trivial, fun u among => sound u (List.mem_cons_of_mem _ among)⟩
      | broken => cases run

theorem yields_advanced {f : Unit → Reader β} (h : Yields (f ()) Q) :
    Yields (Reader.advance >>= f) Q :=
  yields_bind yields_advance fun _ _ => h

theorem yields_lookahead : Yields Reader.lookahead fun t => t.word.Sound := by
  rintro ⟨t, rest⟩ u s' sound run
  cases rest with
  | nil =>
      cases run
      exact ⟨sound _ List.mem_cons_self, sound⟩
  | cons l rest =>
      cases l with
      | token t' =>
          cases run
          exact ⟨sound _ (List.mem_cons_of_mem _ List.mem_cons_self), sound⟩
      | broken => cases run

theorem yields_bound : Yields Reader.bound fun _ => True := by
  intro s n s' sound run
  cases run
  exact ⟨trivial, sound⟩

theorem yields_isAt (kind : TokenKind) : Yields (Reader.isAt kind) fun _ => True :=
  yields_current fun _ _ => yields_pure trivial

theorem yields_expect (kind : TokenKind) :
    Yields (Reader.expect kind) fun t => t.kind = kind ∧ t.word.Sound := by
  refine yields_current fun t sound => ?_
  split
  next same => exact yields_advanced (yields_pure ⟨same, sound⟩)
  next => exact yields_fail t _

theorem yields_mark {c : Char} {f : Token → Reader β} (h : ∀ t, Yields (f t) Q) :
    Yields (Reader.expect (mark c) >>= f) Q :=
  yields_bind (yields_expect _) fun t _ => h t

theorem yields_takes (kind : TokenKind) : Yields (Reader.takes kind) fun _ => True := by
  refine yields_current fun t _ => ?_
  split
  next => exact yields_advanced (yields_pure trivial)
  next => exact yields_pure trivial

theorem yields_expectWord (word : String) : Yields (Reader.expectWord word) fun _ => True := by
  refine yields_current fun t _ => ?_
  split
  next => exact yields_advance
  next => exact yields_fail t _

theorem yields_takesWord (word : String) : Yields (Reader.takesWord word) fun _ => True := by
  refine yields_current fun t _ => ?_
  split
  next => exact yields_advanced (yields_pure trivial)
  next => exact yields_pure trivial

theorem yields_name : Yields Reader.name fun n => n.isName = true := by
  refine yields_bind (yields_expect _) fun t ⟨kind, sound⟩ => yields_pure ?_
  rw [Word.Sound, Token.word, kind] at sound
  exact sound

/-- A choice yields what both ways yield. -/
theorem yields_if {c : Prop} [Decidable c] {r₁ r₂ : Reader α} (yes : Yields r₁ P)
    (no : Yields r₂ P) : Yields (if c then r₁ else r₂) P := by
  split
  next => exact yes
  next => exact no

/-! ## Items -/

section

variable {item : Reader α}

theorem yields_itemsUntil (items : Yields item P) (close : Char) (n : Nat) :
    Yields (Reader.itemsUntil close item n) fun xs => ∀ x ∈ xs, P x := by
  induction n with
  | zero => exact yields_current fun t _ => yields_unexpected t
  | succ n ih =>
      refine yields_bind (yields_takes _) fun closed _ =>
        yields_if (yields_pure (List.forall_mem_nil _)) ?_
      exact yields_bind items fun x here => yields_bind ih fun xs later =>
        yields_pure (List.forall_mem_cons.mpr ⟨here, later⟩)

theorem yields_any (items : Yields item P) (opening close : Char) :
    Yields (Reader.any opening close item) fun xs => ∀ x ∈ xs, P x :=
  yields_mark fun _ => yields_bind yields_bound fun n _ => yields_itemsUntil items close n

theorem yields_many (items : Yields item P) (opening close : Char) :
    Yields (Reader.many opening close item) fun xs => xs ≠ [] ∧ ∀ x ∈ xs, P x :=
  yields_mark fun _ => yields_bind items fun x here => yields_bind yields_bound fun n _ =>
    yields_bind (yields_itemsUntil items close n) fun xs later =>
      yields_pure ⟨List.cons_ne_nil x xs, List.forall_mem_cons.mpr ⟨here, later⟩⟩

theorem yields_optionalMany (items : Yields item P) (opening close : Char) :
    Yields (Reader.optionalMany opening close item) fun xs => ∀ x ∈ xs, P x :=
  yields_bind (yields_isAt _) fun _ _ =>
    yields_if (yields_mono (yields_many items opening close) fun _ h => h.2)
      (yields_pure (List.forall_mem_nil _))

theorem yields_furtherItems (items : Yields item P) (delimiter : Char) (n : Nat) :
    Yields (Reader.furtherItems delimiter item n) fun xs => ∀ x ∈ xs, P x := by
  induction n with
  | zero => exact yields_pure (List.forall_mem_nil _)
  | succ n ih =>
      refine yields_bind (yields_takes _) fun further _ =>
        yields_if ?_ (yields_pure (List.forall_mem_nil _))
      exact yields_bind items fun x here => yields_bind ih fun xs later =>
        yields_pure (List.forall_mem_cons.mpr ⟨here, later⟩)

theorem yields_delimited (items : Yields item P) (delimiter : Char) :
    Yields (Reader.delimited delimiter item) fun xs => xs ≠ [] ∧ ∀ x ∈ xs, P x := by
  refine yields_bind (yields_takes _) fun _ _ => yields_bind items fun x here =>
    yields_bind yields_bound fun n _ => ?_
  exact yields_bind (yields_furtherItems items delimiter n) fun xs later =>
    yields_pure ⟨List.cons_ne_nil x xs, List.forall_mem_cons.mpr ⟨here, later⟩⟩

theorem yields_itemsWhile (items : Yields item P) (opening : Char) (n : Nat) :
    Yields (Reader.itemsWhile opening item n) fun xs => ∀ x ∈ xs, P x := by
  induction n with
  | zero => exact yields_pure (List.forall_mem_nil _)
  | succ n ih =>
      refine yields_bind (yields_isAt _) fun further _ =>
        yields_if ?_ (yields_pure (List.forall_mem_nil _))
      exact yields_bind items fun x here => yields_bind ih fun xs later =>
        yields_pure (List.forall_mem_cons.mpr ⟨here, later⟩)

end

end GraphQL

end ApprovedOps
