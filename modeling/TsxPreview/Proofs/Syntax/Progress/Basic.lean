import TsxPreview.Proofs.Syntax.Reading

/-!
Readers that go on. Wherever a reader starts, it does not give out; it stops at or behind where it
started, within the tokens, and with as many constructs open as there were. What matters of its
success is whether a token was taken.
-/

namespace TsxPreview

theorem TokenKind.ne_eof {kind : TokenKind} {f : TokenKind → Bool} (h : f kind = true)
    (no : f .eof = false := by rfl) : kind ≠ .eof := by
  rintro rfl
  rw [no] at h
  cases h

namespace Parser

variable {α β γ : Type}

/-! ## Where a reader stops -/

/-- At or behind a state, within the tokens, and as deep. -/
structure State.Reaches (i : Input) (s t : State) : Prop where
  le : s.pos ≤ t.pos
  lt : t.pos < i.tokens.size
  depth : t.depth = s.depth

/-- A reader that was started at `s` succeeded or failed. If it gave a result with the property `Q`,
it took a token. -/
def Outcome.Proceeds (i : Input) (s : State) (Q : α → Prop) : Outcome α → Prop
  | .parsed a t => s.Reaches i t ∧ (Q a → s.pos < t.pos)
  | .failed t => s.Reaches i t
  | .exhausted _ => False

/-- From the position `m` on, at tokens with the property `P`, the reader proceeds, and takes a
token if it gives a result with the property `Q`. -/
def Runs (i : Input) (m : Nat) (P : TokenKind → Prop) (p : Parser α) (Q : α → Prop) : Prop :=
  ∀ s : State, m ≤ s.pos → s.pos < i.tokens.size → P (i.kindAt s.pos) → (p i s).Proceeds i s Q

/-- Of any token. -/
abbrev Any : TokenKind → Prop := fun _ => True

/-- Of no result: a token need not have been taken. -/
abbrev None : α → Prop := fun _ => False

/-- Of every result: a token is taken. -/
abbrev All : α → Prop := fun _ => True

/-- From the position `m` on the reader proceeds. -/
abbrev Goes (i : Input) (m : Nat) (p : Parser α) : Prop := Runs i m Any p None

/-- From the position `m` on the reader proceeds, and takes a token if it succeeds. -/
abbrev Takes (i : Input) (m : Nat) (p : Parser α) : Prop := Runs i m Any p All

/-- The same where the caller has seen a token. -/
abbrev TakesSeen (i : Input) (m : Nat) (p : Parser α) : Prop := Runs i m (· ≠ .eof) p All

/-- Of a round that asks for another, or gives a result with the property `Q`. -/
def Round.Takes (Q : γ → Prop) : Round β γ → Prop
  | .again _ => True
  | .done result => Q result

/-- Of a round that asks for another. -/
abbrev Round.Asks : Round β γ → Prop := Round.Takes None

variable {i : Input} {m n : Nat} {P P' : TokenKind → Prop} {Q Q' : α → Prop} {R : β → Prop}
  {p : Parser α} {f : α → Parser β} {s t u : State}

namespace State.Reaches

theorem refl (inside : s.pos < i.tokens.size) : s.Reaches i s := ⟨Nat.le_refl _, inside, rfl⟩

theorem report (inside : s.pos < i.tokens.size) (found : Diagnostics) :
    s.Reaches i { s with found := found } := ⟨Nat.le_refl _, inside, rfl⟩

theorem trans (h : s.Reaches i t) (k : t.Reaches i u) : s.Reaches i u :=
  ⟨Nat.le_trans h.le k.le, k.lt, k.depth.trans h.depth⟩

end State.Reaches

theorem Outcome.Proceeds.after {o : Outcome α} (h : o.Proceeds i t Q') (reaches : s.Reaches i t)
    (moved : ∀ a, Q a → s.pos < t.pos ∨ Q' a) : o.Proceeds i s Q := by
  cases o with
  | parsed a u =>
    refine ⟨reaches.trans h.1, fun q => ?_⟩
    obtain before | q' := moved a q
    · exact Nat.lt_of_lt_of_le before h.1.le
    · exact Nat.lt_of_le_of_lt reaches.le (h.2 q')
  | failed u => exact reaches.trans h
  | exhausted u => exact h

namespace Runs

/-! ## Weaker statements -/

theorem mono (h : Runs i m P p Q) (le : m ≤ n) : Runs i n P p Q := fun s start =>
  h s (Nat.le_trans le start)

theorem imp (h : Runs i m P p Q) (hp : ∀ k, P' k → P k) (hq : ∀ a, Q' a → Q a) :
    Runs i m P' p Q' := fun s start inside here =>
  (h s start inside (hp _ here)).after (.refl inside) fun a q => .inr (hq a q)

/-- Behind the last token there is nothing to read. -/
theorem of_size_le (past : i.tokens.size ≤ m) : Runs i m P p Q := fun _ start inside =>
  absurd inside (Nat.not_lt_of_le (Nat.le_trans past start))

/-! ## Parts of productions -/

theorem pure (a : α) : Runs i m P (Pure.pure a) None := fun _ _ inside _ =>
  ⟨.refl inside, False.elim⟩

theorem done (r : γ) : Runs i m P (Pure.pure (Round.done r : Round β γ)) Round.Asks :=
  fun _ _ inside _ => ⟨.refl inside, False.elim⟩

theorem ite {c : Prop} [Decidable c] {q : Parser α} (yes : c → Runs i m P p Q)
    (no : ¬ c → Runs i m P q Q) : Runs i m P (if c then p else q) Q := by
  by_cases h : c
  · rw [if_pos h]
    exact yes h
  · rw [if_neg h]
    exact no h

/-- A reader, and what follows its result. -/
theorem bind_at (first : (p i t).Proceeds i t Q) (reaches : s.Reaches i t)
    (rest : ∀ a u, t.Reaches i u → (Q a → t.pos < u.pos) → (f a i u).Proceeds i s R) :
    ((p >>= f) i t).Proceeds i s R := by
  simp only [Bind.bind]
  cases hr : p i t with
  | parsed a u =>
    rw [hr] at first
    exact rest a u first.1 first.2
  | failed u =>
    rw [hr] at first
    exact reaches.trans first
  | exhausted u =>
    rw [hr] at first
    exact first

theorem behind (h : Runs i m Any p Q) (start : m ≤ s.pos) (reaches : s.Reaches i t) :
    (p i t).Proceeds i s Q :=
  (h t (Nat.le_trans start reaches.le) reaches.lt trivial).after reaches fun _ q => .inr q

/-- Behind a token no other has to be taken. -/
theorem ahead (h : Runs i (m + 1) Any p None) (start : m ≤ s.pos) (reaches : s.Reaches i t)
    (moved : s.pos < t.pos) : (p i t).Proceeds i s Q :=
  (h t (Nat.lt_of_le_of_lt start moved) reaches.lt trivial).after reaches fun _ _ => .inl moved

/-- What follows a reader that may have taken nothing. -/
theorem bind (hp : Runs i m P p None) (hf : ∀ a, Runs i m Any (f a) R) :
    Runs i m P (p >>= f) R := fun s start inside here =>
  bind_at (hp s start inside here) (.refl inside) fun a _ reaches _ => (hf a).behind start reaches

/-- What follows a token may take nothing more. -/
theorem first (hp : Runs i m P p All) (hf : ∀ a, Runs i (m + 1) Any (f a) None) :
    Runs i m P (p >>= f) R := fun s start inside here =>
  bind_at (hp s start inside here) (.refl inside) fun a _ reaches moved =>
    (hf a).ahead start reaches (moved trivial)

/-- What follows a reader that took a token if it says so. -/
theorem taking {p : Parser Bool} {f : Bool → Parser β} (hp : Runs i m P p (· = true))
    (yes : Runs i (m + 1) Any (f true) None) (no : Runs i m Any (f false) R) :
    Runs i m P (p >>= f) R := by
  intro s start inside here
  refine bind_at (hp s start inside here) (.refl inside) fun b t reaches moved => ?_
  cases b with
  | true => exact yes.ahead start reaches (moved rfl)
  | false => exact no.behind start reaches

theorem map {r : α → β} (hp : Runs i m P p (fun a => R (r a))) : Runs i m P (r <$> p) R := by
  intro s start inside here
  change ((p >>= fun a => Pure.pure (r a)) i s).Proceeds i s R
  exact bind_at (hp s start inside here) (.refl inside) fun _ _ reaches moved => ⟨reaches, moved⟩

/-- A part that may be left out. -/
theorem when {c : Prop} [Decidable c] {q : Parser β} (hp : c → Runs i m P p None)
    (hq : Runs i m Any q R) : Runs i m P (if c then p >>= fun _ => q else q) R :=
  ite (fun h => bind (hp h) fun _ => hq) fun _ => hq.imp (fun _ _ => trivial) fun _ r => r

end Runs

/-! ## Readers that only look -/

theorem bind_look (g : Input → State → α) (f : α → Parser β) (i : Input) (s : State) :
    (look g >>= f) i s = f (g i s) i s := rfl

/-- A reader that succeeds and changes nothing. -/
def Looks (p : Parser α) : Prop := ∀ i s, ∃ a, p i s = .parsed a s

namespace Looks

theorem look (g : Input → State → α) : Looks (look g) := fun i s => ⟨g i s, rfl⟩

theorem pure (a : α) : Looks (Pure.pure a : Parser α) := fun _ _ => ⟨a, rfl⟩

theorem bind (hp : Looks p) (hf : ∀ a, Looks (f a)) : Looks (p >>= f) := by
  intro i s
  obtain ⟨a, first⟩ := hp i s
  obtain ⟨b, second⟩ := hf a i s
  refine ⟨b, ?_⟩
  simp only [Bind.bind]
  rw [first]
  exact second

theorem ite {c : Prop} [Decidable c] {q : Parser α} (hp : Looks p) (hq : Looks q) :
    Looks (if c then p else q) := by
  split
  · exact hp
  · exact hq

theorem peek : Looks peek := look _
theorem peekKind : Looks peekKind := look _
theorem ahead (n : Nat) : Looks (ahead n) := look _
theorem newlineAhead (n : Nat) : Looks (newlineAhead n) := look _
theorem here : Looks here := look _
theorem previous : Looks previous := look _
theorem afterGroup (n : Nat) : Looks (afterGroup n) := look _
theorem tooManyErrors : Looks tooManyErrors := look _
theorem failedSince (c : Checkpoint) : Looks (failedSince c) := look _
theorem spanFrom (start : Span) : Looks (spanFrom start) := previous.bind fun _ => pure _
theorem atEnd : Looks atEnd := peekKind.bind fun _ => pure _
theorem check (p : Punct) : Looks (check p) := peekKind.bind fun _ => pure _
theorem checkKeyword (k : Keyword) : Looks (checkKeyword k) := peekKind.bind fun _ => pure _
theorem checkWord (name : String) : Looks (checkWord name) := peekKind.bind fun _ => pure _

end Looks

namespace Runs

theorem look_at (hp : Looks p) (hf : ∀ a, (f a i t).Proceeds i s R) :
    ((p >>= f) i t).Proceeds i s R := by
  obtain ⟨a, looked⟩ := hp i t
  simp only [Bind.bind]
  rw [looked]
  exact hf a

theorem look (hp : Looks p) (hf : ∀ a, Runs i m P (f a) R) : Runs i m P (p >>= f) R :=
  fun s start inside here => look_at hp fun a => hf a s start inside here

theorem peekKind {f : TokenKind → Parser β} (hf : ∀ k, P k → Runs i m (· = k) (f k) R) :
    Runs i m P (Parser.peekKind >>= f) R := fun s start inside here =>
  hf _ here s start inside rfl

theorem peek {f : Token → Parser β} (hf : ∀ t, P t.kind → Runs i m (· = t.kind) (f t) R) :
    Runs i m P (Parser.peek >>= f) R := by
  intro s start inside here
  have same : i.kindAt s.pos = (i.tokenAt s.pos).kind := by
    simp [Input.tokenAt, Input.kindAt, inside]
  exact hf (i.tokenAt s.pos) (same ▸ here) s start inside same

/-- A condition on the current token. -/
theorem test {c : TokenKind → Bool} {f : Bool → Parser β}
    (yes : Runs i m (fun k => P k ∧ c k = true) (f true) R)
    (no : Runs i m (fun k => P k ∧ c k = false) (f false) R) :
    Runs i m P ((Parser.peekKind >>= fun k => Pure.pure (c k)) >>= f) R := by
  intro s start inside here
  change (f (c (i.kindAt s.pos)) i s).Proceeds i s R
  cases h : c (i.kindAt s.pos) with
  | true => exact yes s start inside ⟨here, h⟩
  | false => exact no s start inside ⟨here, h⟩

theorem check {x : Punct} {f : Bool → Parser β}
    (yes : Runs i m (fun k => P k ∧ k.isPunct x = true) (f true) R)
    (no : Runs i m (fun k => P k ∧ k.isPunct x = false) (f false) R) :
    Runs i m P (Parser.check x >>= f) R := test yes no

theorem checkKeyword {w : Keyword} {f : Bool → Parser β}
    (yes : Runs i m (fun k => P k ∧ k.isKeyword w = true) (f true) R)
    (no : Runs i m (fun k => P k ∧ k.isKeyword w = false) (f false) R) :
    Runs i m P (Parser.checkKeyword w >>= f) R := test yes no

/-- Either of two readers, the first one announced by a keyword, and what follows both. -/
theorem byKeyword {w : Keyword} {q : Parser α}
    (yes : Runs i m (fun k => P k ∧ k.isKeyword w = true) p All) (no : Runs i m P q All)
    (rest : ∀ a, Runs i (m + 1) Any (f a) None) :
    Runs i m P (Parser.checkKeyword w >>= fun b => if b then p >>= f else q >>= f) R :=
  checkKeyword (first yes rest) (first (no.imp (fun _ h => h.1) fun _ r => r) rest)

/-! ## Readers that fail -/

/-- Reports may be added, but the cursor and the depth stay. -/
theorem reportAt (code : ErrorCode) (message : String) (span : Span) :
    Runs i m P (Parser.reportAt code message span) None := fun _ _ inside _ =>
  ⟨.report inside _, False.elim⟩

theorem report (code : ErrorCode) (message : String) :
    Runs i m P (Parser.report code message) None := look .here fun _ => reportAt _ _ _

/-- A report in front changes nothing. -/
theorem reporting {q : Parser β} (code : ErrorCode) (message : String) (hq : Runs i m P q R) :
    Runs i m P (Parser.report code message >>= fun _ => q) R := by
  intro s start inside here
  let found := s.found.push (Diagnostic.at i.file code message (i.tokenAt s.pos).span .none)
  exact (hq { s with found } start inside here).after (.report inside _) fun _ r => .inr r

theorem fail : Runs i m P (Parser.fail : Parser α) Q := fun _ _ inside _ =>
  State.Reaches.refl inside

theorem failAt (code : ErrorCode) (message : String) (span : Span) :
    Runs i m P (Parser.failAt code message span : Parser α) Q := fun _ _ inside _ =>
  State.Reaches.report inside _

theorem failHere (code : ErrorCode) (message : String) :
    Runs i m P (Parser.failHere code message : Parser α) Q := fun _ _ inside _ =>
  State.Reaches.report inside _

theorem unexpected (message : String → String) :
    Runs i m P (Parser.unexpected message : Parser α) Q := fun _ _ inside _ =>
  State.Reaches.report inside _

theorem unsupported (what : String) (span : Span) :
    Runs i m P (Parser.unsupported what span : Parser α) Q := failAt _ _ _

/-- What stands behind a failure does not matter. -/
theorem failing (code : ErrorCode) (message : String) (span : Span) :
    Runs i m P ((Parser.failAt code message span : Parser α) >>= f) R := fun _ _ inside _ =>
  State.Reaches.report inside _

/-! ## Readers that take a token -/

theorem advance {Q : Token → Prop} (closed : i.Closed) (live : ∀ k, P k → k ≠ .eof) :
    Runs i m P advance Q := by
  intro s start inside here
  have more := closed s.pos (live _ here)
  unfold Parser.advance Outcome.Proceeds
  rw [if_pos more]
  exact ⟨⟨Nat.le_succ _, more, rfl⟩, fun _ => Nat.lt_succ_self _⟩

/-- At the end of the file the cursor stays. -/
theorem advanceAny : Runs i m P Parser.advance None := by
  intro s start inside here
  unfold Parser.advance Outcome.Proceeds
  refine ⟨⟨?_, ?_, rfl⟩, False.elim⟩
  all_goals dsimp only; split <;> omega

theorem eatAny {x : Punct} : Runs i m P (Parser.eat x) None :=
  test (ite (fun _ => bind advanceAny fun _ => pure _) fun _ => pure _)
    (ite (fun _ => bind advanceAny fun _ => pure _) fun _ => pure _)

section

variable (closed : i.Closed)

include closed

/-- The current token is taken, and what follows may take nothing more. -/
theorem take {f : Token → Parser β} (live : ∀ k, P k → k ≠ .eof)
    (hf : ∀ t, Runs i (m + 1) Any (f t) None) : Runs i m P (Parser.advance >>= f) R :=
  first (advance closed live) hf

theorem eatKind {c : TokenKind → Bool} {f : Bool → Parser β} (last : c .eof = false)
    (yes : Runs i (m + 1) Any (f true) None) (no : Runs i m P (f false) R) :
    Runs i m P ((Parser.peekKind >>= fun k => Pure.pure (c k)) >>= fun b =>
      (if b then Parser.advance >>= fun _ => Pure.pure true else Pure.pure false) >>= f) R :=
  test (take closed (fun k h => k.ne_eof h.2 last) fun _ => yes)
    (no.imp (fun _ h => h.1) fun _ r => r)

theorem eat {x : Punct} {f : Bool → Parser β} (yes : Runs i (m + 1) Any (f true) None)
    (no : Runs i m P (f false) R) : Runs i m P (Parser.eat x >>= f) R :=
  eatKind (c := (·.isPunct x)) closed rfl yes no

theorem eatKeyword {w : Keyword} {f : Bool → Parser β} (yes : Runs i (m + 1) Any (f true) None)
    (no : Runs i m P (f false) R) : Runs i m P (Parser.eatKeyword w >>= f) R :=
  eatKind (c := (·.isKeyword w)) closed rfl yes no

/-- A part that is left out unless a keyword announces it. -/
theorem whenEatKeyword {w : Keyword} {q : Parser β} (hp : Runs i (m + 1) Any p None)
    (hq : Runs i m Any q R) : Runs i m Any (Parser.eatKeyword w >>= fun b =>
      if b then p >>= fun _ => q else q) R := by
  refine eatKeyword closed (bind hp fun _ => ?_) hq
  exact (hq.mono (Nat.le_succ m)).imp (fun _ _ => trivial) fun _ => False.elim

theorem expectKind {matches' : TokenKind → Bool} {Q : Token → Prop} (no : matches' .eof = false)
    (shown : String) (closer : Bool) : Runs i m P (Parser.expectKind matches' shown closer) Q := by
  refine peekKind fun k _ => ite (fun h => ?_) fun _ => failHere _ _
  exact advance closed fun k' same => same ▸ k.ne_eof h no

theorem expect {x : Punct} {Q : Token → Prop} : Runs i m P (Parser.expect x) Q :=
  expectKind closed rfl _ _

theorem expectKeyword {w : Keyword} {Q : Token → Prop} : Runs i m P (Parser.expectKeyword w) Q :=
  expectKind closed rfl _ _

theorem expectWord {word : String} {Q : Token → Prop} : Runs i m P (Parser.expectWord word) Q :=
  expectKind closed rfl _ _

theorem expectIdentifier {Q : Ident → Prop} : Runs i m P Parser.expectIdentifier Q := by
  refine peekKind fun k _ => ?_
  split
  · exact take closed (by simp) fun _ => pure _
  · exact unexpected _

theorem expectPropertyName {Q : Ident → Prop} : Runs i m P Parser.expectPropertyName Q := by
  refine peekKind fun k _ => ?_
  cases h : k.propertyName? with
  | some name =>
    refine take closed (fun k' same => ?_) fun _ => pure _
    subst same
    rintro rfl
    cases h
  | none => exact unexpected _

theorem expectString {Q : String × Span → Prop} : Runs i m P Parser.expectString Q := by
  refine peekKind fun k _ => ?_
  split
  · exact take closed (by simp) fun _ => pure _
  · exact unexpected _

theorem semicolon : Runs i m P Parser.semicolon None := by
  refine eat closed (pure _) (look .peek fun token => ite (fun _ => pure _) fun _ => report _ _)

end

/-! ## Nesting and speculation -/

/-- A change to the state that is made however a reader ends. -/
theorem finally_at {change : State → State} (whole : (p i t).Proceeds i t Q) (start : s.pos ≤ t.pos)
    (reaches : ∀ u, t.Reaches i u → s.Reaches i (change u)) (pos : ∀ u, (change u).pos = u.pos) :
    (Parser.finally' p change i t).Proceeds i s Q := by
  unfold Parser.finally'
  cases hr : p i t with
  | parsed a u =>
    rw [hr] at whole
    exact ⟨reaches u whole.1, fun q => pos u ▸ Nat.lt_of_le_of_lt start (whole.2 q)⟩
  | failed u =>
    rw [hr] at whole
    exact reaches u whole
  | exhausted u =>
    rw [hr] at whole
    exact whole

theorem finally' {change : State → State} (hp : Runs i m P p Q)
    (pos : ∀ s, (change s).pos = s.pos) (depth : ∀ s, (change s).depth = s.depth) :
    Runs i m P (Parser.finally' p change) Q := fun s start inside here =>
  finally_at (hp s start inside here) (Nat.le_refl _)
    (fun u h => ⟨pos u ▸ h.le, pos u ▸ h.lt, (depth u).trans h.depth⟩) pos

/-- However `p` ends, one construct fewer is open than while it was read. -/
theorem nested (hp : Runs i m P p Q) : Runs i m P (Parser.nested p) Q := by
  refine look (.look _) fun depth => ite (fun _ => ?_) fun _ => failHere _ _
  intro s start inside here
  let deeper : State := { s with depth := s.depth + 1 }
  exact finally_at (hp deeper start inside here) (Nat.le_refl _)
    (fun u h => ⟨h.le, h.lt, by simp [h.depth]⟩) fun _ => rfl

theorem setIn {on : State → Bool} {q : Parser α} (hq : Runs i m P q Q) :
    Runs i m P (update (fun s => { s with noIn := on s }) >>= fun _ => q) Q := by
  intro s start inside here
  change (q i { s with noIn := on s }).Proceeds i s Q
  exact (hq { s with noIn := on s } start inside here).after ⟨Nat.le_refl _, inside, rfl⟩
    fun _ q => .inr q

theorem allowIn (hp : Runs i m P p Q) : Runs i m P (Parser.allowIn p) Q :=
  look (.look _) fun _ => setIn (finally' hp (fun _ => rfl) fun _ => rfl)

theorem forbidIn (hp : Runs i m P p Q) : Runs i m P (Parser.forbidIn p) Q :=
  setIn (finally' hp (fun _ => rfl) fun _ => rfl)

/-- An attempt, and what follows a result or a failure. -/
theorem attempt_at {f : Option α → Parser β} (first : (p i s).Proceeds i s All)
    (parsed : ∀ a t, s.Reaches i t → s.pos < t.pos → (f (some a) i t).Proceeds i s R)
    (failed : ∀ t, s.Reaches i t → (f none i t).Proceeds i s R) :
    ((Parser.attempt p >>= f) i s).Proceeds i s R := by
  simp only [Bind.bind, Parser.attempt]
  cases hr : p i s with
  | parsed a t =>
    rw [hr] at first
    exact parsed a t first.1 (first.2 trivial)
  | failed t =>
    rw [hr] at first
    exact failed t first
  | exhausted t =>
    rw [hr] at first
    exact first

/-- After a failure reading goes on where it stopped: behind the start, or still at it. -/
theorem attempt {f : Option α → Parser β} (hp : Runs i m P p All)
    (parsed : ∀ a, Runs i (m + 1) Any (f (some a)) None) (stayed : Runs i m P (f none) R)
    (moved : Runs i m Any (f none) None) : Runs i m P (Parser.attempt p >>= f) R := by
  intro s start inside here
  refine attempt_at (hp s start inside here)
    (fun a t reaches before => (parsed a).ahead start reaches before) fun t reaches => ?_
  by_cases same : t.pos = s.pos
  · exact (stayed t (same ▸ start) reaches.lt (same ▸ here)).after reaches fun _ r => .inr r
  · have before : s.pos < t.pos := Nat.lt_of_le_of_ne reaches.le (Ne.symm same)
    exact (moved t (Nat.le_trans start reaches.le) reaches.lt trivial).after reaches
      fun _ _ => .inl before

/-- What is read from a place on that is remembered. -/
theorem checkpoint {f : Checkpoint → Parser β}
    (h : ∀ s, m ≤ s.pos → s.pos < i.tokens.size → P (i.kindAt s.pos) →
      ∀ c : Checkpoint, c.pos = s.pos → (f c i s).Proceeds i s R) :
    Runs i m P (Parser.checkpoint >>= f) R := fun s start inside here =>
  h s start inside here ⟨s.pos, s.found.total⟩ rfl

/-- What is read behind a place that is remembered, and what follows. -/
theorem since (hp : Runs i m Any p None) (start : m ≤ s.pos) (reaches : s.Reaches i t)
    (hf : ∀ a u, s.Reaches i u → (f a i u).Proceeds i s R) :
    ((p >>= f) i t).Proceeds i s R :=
  bind_at (hp t (Nat.le_trans start reaches.le) reaches.lt trivial) reaches fun a u on _ =>
    hf a u (reaches.trans on)

/-- Reading goes back to the place that was remembered. -/
theorem rewind {q : Parser β} {c : Checkpoint} {s t : State} (whole : (q i { t with
      pos := s.pos, found := t.found.truncate c.total }).Proceeds i { t with
      pos := s.pos, found := t.found.truncate c.total } R)
    (reaches : s.Reaches i t) (back : c.pos = s.pos) (inside : s.pos < i.tokens.size) :
    ((Parser.rewind c >>= fun _ => q) i t).Proceeds i s R := by
  change (q i { t with pos := c.pos, found := t.found.truncate c.total }).Proceeds i s R
  rw [back]
  exact whole.after ⟨Nat.le_refl _, inside, reaches.depth⟩ fun _ r => .inr r

end Runs

/-! ## Loops -/

/-- A loop that does not give out has taken a token in a round that asks for another, and goes on
behind it. -/
theorem rounds_again {body : β → Parser (Round β γ)} {fuel : Nat} {acc acc' : β} {s t : State}
    (ends : ∀ u, Parser.rounds body (fuel + 1) acc i s ≠ .exhausted u)
    (again : body acc i s = .parsed (.again acc') t) :
    s.pos < t.pos ∧ Parser.rounds body (fuel + 1) acc i s = Parser.rounds body fuel acc' i t := by
  have round : Parser.rounds body (fuel + 1) acc i s =
      (if decide (s.pos < t.pos) then Parser.rounds body fuel acc' else outOfFuel) i t := by
    rw [Parser.rounds, bind_look]
    simp only [Bind.bind]
    rw [again]
    rfl
  by_cases moved : s.pos < t.pos
  · rw [decide_eq_true moved] at round
    exact ⟨moved, round⟩
  · rw [decide_eq_false moved] at round
    exact absurd round (ends t)

namespace Runs

/-- A round, and what follows if it asks for more. -/
theorem round {body : β → Parser (Round β γ)} {fuel : Nat} {acc : β} {T : γ → Prop}
    (first : (body acc i s).Proceeds i s (Round.Takes T)) (inside : s.pos < i.tokens.size)
    (rest : ∀ acc t, s.Reaches i t → s.pos < t.pos →
      (Parser.rounds body fuel acc i t).Proceeds i t None) :
    (Parser.rounds body (fuel + 1) acc i s).Proceeds i s T := by
  rw [Parser.rounds, bind_look]
  refine bind_at first (.refl inside) fun r t reaches moved => ?_
  cases r with
  | again acc' =>
    have before : s.pos < t.pos := moved trivial
    change Outcome.Proceeds i s T ((if decide (s.pos < t.pos) then Parser.rounds body fuel acc'
      else outOfFuel) i t)
    rw [decide_eq_true before]
    exact (rest acc' t reaches before).after reaches fun _ _ => .inl before
  | done r => exact ⟨reaches, moved⟩

theorem rounds {body : β → Parser (Round β γ)} (h : ∀ acc, Runs i m Any (body acc) Round.Asks)
    (fuel : Nat) (acc : β) {s : State} (start : m ≤ s.pos) (inside : s.pos < i.tokens.size)
    (enough : i.tokens.size < s.pos + fuel) :
    (Parser.rounds body fuel acc i s).Proceeds i s None := by
  induction fuel generalizing acc s with
  | zero => exact absurd inside (Nat.not_lt_of_lt enough)
  | succ fuel ih =>
    exact round (h acc s start inside trivial) inside fun acc t reaches moved =>
      ih acc (Nat.le_trans start reaches.le) reaches.lt (by omega)

/-- A loop in which every round takes a token or is the last. -/
theorem loop {body : β → Parser (Round β γ)} (h : ∀ acc, Runs i m Any (body acc) Round.Asks)
    (acc : β) : Runs i m P (Parser.loop acc body) None := fun _ start inside _ =>
  rounds h _ acc start inside (by omega)

theorem commaList (closed : i.Closed) {close : Punct} {item : Parser α}
    (h : Runs i m Any item None) : Runs i m P (Parser.commaList close item) None :=
  loop (fun _ => look (.check _) fun _ => look .atEnd fun _ => ite (fun _ => done _) fun _ =>
    bind h fun _ => eat closed (pure _) (done _)) []

end Runs

/-! ## The nonterminals -/

/-- From the position `m` on every nonterminal takes a token if it succeeds. -/
structure Grammar.Proceeds (i : Input) (m : Nat) (g : Grammar) : Prop where
  closed : i.Closed
  statement : ∀ {P Q}, Runs i m P g.statement Q
  assignment : ∀ {P Q}, Runs i m P g.assignment Q
  binary : ∀ {P Q} least, Runs i m P (g.binary least) Q
  unary : ∀ {P Q}, Runs i m P g.unary Q
  newExpr : ∀ {P Q}, (∀ k, P k → k ≠ .eof) → Runs i m P g.newExpr Q
  pattern : ∀ {P Q}, Runs i m P g.pattern Q
  element : ∀ {P Q}, Runs i m P g.element Q
  type : ∀ {P Q}, Runs i m P g.type Q
  postfixType : ∀ {P Q}, Runs i m P g.postfixType Q
  primaryType : ∀ {P Q}, Runs i m P g.primaryType Q

theorem Grammar.Proceeds.next {g : Grammar} (h : g.Proceeds i m) : g.Proceeds i (m + 1) where
  closed := h.closed
  statement := h.statement.mono (Nat.le_succ m)
  assignment := h.assignment.mono (Nat.le_succ m)
  binary least := (h.binary least).mono (Nat.le_succ m)
  unary := h.unary.mono (Nat.le_succ m)
  newExpr live := (h.newExpr live).mono (Nat.le_succ m)
  pattern := h.pattern.mono (Nat.le_succ m)
  element := h.element.mono (Nat.le_succ m)
  type := h.type.mono (Nat.le_succ m)
  postfixType := h.postfixType.mono (Nat.le_succ m)
  primaryType := h.primaryType.mono (Nat.le_succ m)

/-! ## Recovery -/

theorem closeFrom_eq_some {tokens : Array Token} {fuel index depth close : Nat}
    (h : closeFrom tokens fuel index depth = some close) :
    index < close ∧ ∃ t, tokens[close - 1]? = some t ∧ t.kind ≠ .eof := by
  induction fuel generalizing index depth with
  | zero => cases h
  | succ fuel ih =>
    unfold closeFrom at h
    split at h
    · cases h
    · rename_i token found
      by_cases last : token.kind.isEof = true
      · rw [if_pos last] at h
        cases h
      · rw [if_neg last] at h
        split at h
        · split at h
          · cases h
            exact ⟨Nat.lt_succ_self _, token, found, fun eof => last (by rw [eof]; rfl)⟩
          · exact ⟨Nat.lt_of_succ_lt (ih h).1, (ih h).2⟩
        · exact ⟨Nat.lt_of_succ_lt (ih h).1, (ih h).2⟩

/-- A round of the search for a place where reading can go on. -/
def resumeRound (start : Nat) (_ : Unit) : Parser (Round Unit Unit) := do
  let token ← peek
  let moved ← look fun _ s => decide (start < s.pos)
  if token.kind.isEof || (moved && token.newlineBefore) then return .done ()
  if token.kind.isPunct .semicolon then
    let _ ← advance
    return .done ()
  if token.kind.isPunct .rBrace || (moved && isResumeKeyword token.kind) then return .done ()
  let _ ← advance
  return .again ()

namespace Runs

section

variable (closed : i.Closed)

include closed

theorem skipGroup {Q : Unit → Prop} : Runs i m P Parser.skipGroup Q := by
  intro s start inside _
  unfold Parser.skipGroup
  rw [bind_look]
  cases h : i.matchingClose s.pos with
  | some close =>
    obtain ⟨behind, t, found, live⟩ := closeFrom_eq_some h
    have more : close - 1 + 1 < i.tokens.size :=
      closed _ (by simpa [Input.kindAt, found] using live)
    refine ⟨⟨?_, ?_, rfl⟩, fun _ => ?_⟩ <;> dsimp only <;> omega
  | none => exact look (P := Any) .peekKind (fun _ => failHere _ _) s start inside trivial

theorem resumeRound (start : Nat) (acc : Unit) : Runs i m P (resumeRound start acc) Round.Asks := by
  refine peek fun token _ => look (.look _) fun moved => ite (fun _ => done _) fun more =>
    ite (fun semi => ?_) fun _ => ite (fun _ => done _) fun _ => ?_
  · exact take closed (fun k same => same ▸ TokenKind.ne_eof semi) fun _ => pure _
  · refine take closed (fun k same => ?_) fun _ => pure _
    rintro rfl
    simp [← same, TokenKind.isEof] at more

theorem synchronize : Runs i m P Parser.synchronize None :=
  look (.look _) fun start => loop (resumeRound closed start) ()

/-- The first round takes a token, unless there is none or a brace closes. -/
theorem resumeRound_start {s : State} (inside : s.pos < i.tokens.size)
    (live : i.kindAt s.pos ≠ .eof) (open' : (i.kindAt s.pos).isPunct .rBrace = false) :
    (Parser.resumeRound s.pos () i s).Proceeds i s All := by
  have same : (i.tokenAt s.pos).kind = i.kindAt s.pos := by
    simp [Input.tokenAt, Input.kindAt, inside]
  have notLast : (i.tokenAt s.pos).kind.isEof = false := by
    rw [same]
    cases h : i.kindAt s.pos <;> first | rfl | exact absurd h live
  have round : Parser.resumeRound s.pos () i s =
      (if (i.tokenAt s.pos).kind.isPunct .semicolon then
          Parser.advance >>= fun _ => Pure.pure (.done ())
        else Parser.advance >>= fun _ => Pure.pure (.again ()) : Parser (Round Unit Unit)) i s := by
    simp only [Parser.resumeRound, Parser.peek, bind_look, Nat.lt_irrefl, notLast]
    simp [same, open']
  rw [round]
  refine (ite (fun _ => ?_) fun _ => ?_ : Runs i s.pos (· = i.kindAt s.pos) _ All) s (Nat.le_refl _)
    inside rfl
  all_goals exact take closed (fun k here => here ▸ live) fun _ => pure _

/-- A token is skipped, unless there is none or a brace closes. -/
theorem synchronize_live {Q : Unit → Prop} :
    Runs i m (fun k => k ≠ .eof ∧ k.isPunct .rBrace = false) Parser.synchronize Q := by
  intro s _ inside here
  change (Parser.rounds (Parser.resumeRound s.pos) (i.tokens.size + 1 + 1) () i s).Proceeds i s Q
  have first := (resumeRound_start closed inside here.1 here.2).after (Q := Round.Takes Q)
    (.refl inside) fun _ _ => .inr trivial
  exact round first inside fun acc t reaches moved => rounds (fun _ => resumeRound closed s.pos _) _ acc
    (Nat.zero_le _) reaches.lt (by omega)

end

end Runs

end Parser

end TsxPreview
