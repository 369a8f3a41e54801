import TsxPreview.Proofs.Syntax.Nesting.Nodes

/-!
Where readers stop, and what is known of their results there. One rule for each of the readers that
productions are made of; readers of types only have to stop behind where they started.
-/

namespace TsxPreview.Parser

open SyntaxNode

variable {α β γ : Type}

/-- A reader that stopped did so at or behind `k`, within the tokens. If it gave a result, `Q` holds
of it at the place where it stopped. -/
def Outcome.Lands (i : Input) (k : Nat) (Q : α → Nat → Prop) : Outcome α → Prop
  | .parsed a t => k ≤ t.pos ∧ t.pos < i.tokens.size ∧ Q a t.pos
  | .failed t => k ≤ t.pos ∧ t.pos < i.tokens.size
  | .exhausted _ => True

/-- Started at `k`, the reader stops behind it, and `Q` holds of its result there. -/
def Lands (i : Input) (k : Nat) (p : Parser α) (Q : α → Nat → Prop) : Prop :=
  ∀ s : State, s.pos = k → k < i.tokens.size → (p i s).Lands i k Q

/-- Started at `k`, the reader stops behind it. -/
abbrev Moves (i : Input) (k : Nat) (p : Parser α) : Prop := Lands i k p fun _ _ => True

/-- What the reader gives stands between where it starts and where it stops. -/
abbrev Yields (i : Input) (k : Nat) (p : Parser α) (node : α → SyntaxNode) : Prop :=
  Lands i k p fun a n => (node a).Stands i k n

/-- All parts of what the reader gives stand between where it starts and where it stops. -/
abbrev YieldsAll (i : Input) (k : Nat) (p : Parser α) (nodes : α → List SyntaxNode) : Prop :=
  Lands i k p fun a n => Standing i k n (nodes a)

/-- The same of a reader that takes a token, even if what it gives has no parts. -/
abbrev TakesAll (i : Input) (k : Nat) (p : Parser α) (nodes : α → List SyntaxNode) : Prop :=
  Lands i k p fun a n => k < n ∧ Standing i k n (nodes a)

/-- What holds after a round of a loop with the invariant `I`. -/
def Round.Keeps (I : β → Nat → Prop) (Q : γ → Nat → Prop) : Round β γ → Nat → Prop
  | .again acc, n => I acc n
  | .done result, n => Q result n

variable {i : Input} {k m n : Nat} {p : Parser α} {f : α → Parser β} {Q Q' : α → Nat → Prop}
  {R : β → Nat → Prop} {s t : State}

theorem Outcome.Lands.mono {o : Outcome α} (h : o.Lands i k Q) (le : m ≤ k)
    (imp : ∀ a n, k ≤ n → n < i.tokens.size → Q a n → Q' a n) : o.Lands i m Q' := by
  cases o with
  | parsed a t => exact ⟨Nat.le_trans le h.1, h.2.1, imp a _ h.1 h.2.1 h.2.2⟩
  | failed t => exact ⟨Nat.le_trans le h.1, h.2⟩
  | exhausted t => trivial

/-- A token that is found in a table without the end of the file. -/
theorem live_of_found {kind : TokenKind} {table : TokenKind → Option α} {a : α}
    (here : i.kindAt k = kind) (found : table kind = some a) (last : table .eof = none := by rfl) :
    i.kindAt k ≠ .eof := by
  intro eof
  rw [← here, eof, last] at found
  cases found

namespace Lands

theorem imp (h : Lands i k p Q) (hq : ∀ a n, k ≤ n → n < i.tokens.size → Q a n → Q' a n) :
    Lands i k p Q' := fun s start inside => (h s start inside).mono (Nat.le_refl k) hq

theorem moves (h : Lands i k p Q) : Moves i k p := h.imp fun _ _ _ _ _ => trivial

/-! ## Parts of productions -/

theorem pure {a : α} (h : k < i.tokens.size → Q a k) : Lands i k (Pure.pure a) Q := by
  rintro s rfl inside
  exact ⟨Nat.le_refl _, inside, h inside⟩

/-- A reader starts within the tokens. -/
theorem inside (h : k < i.tokens.size → Lands i k p Q) : Lands i k p Q := fun s start lt =>
  h lt s start lt

/-- What follows something that is given. -/
theorem given {a : α} (hf : Lands i k (f a) R) : Lands i k (Pure.pure a >>= f) R := hf

theorem bind_at (first : (p i s).Lands i k Q)
    (rest : ∀ a t, k ≤ t.pos → t.pos < i.tokens.size → Q a t.pos → (f a i t).Lands i k R) :
    ((p >>= f) i s).Lands i k R := by
  simp only [Bind.bind]
  cases h : p i s with
  | parsed a t =>
    rw [h] at first
    exact rest a t first.1 first.2.1 first.2.2
  | failed t =>
    rw [h] at first
    exact first
  | exhausted t => trivial

theorem bind (hp : Lands i k p Q) (hf : ∀ a n, k ≤ n → Q a n → Lands i n (f a) R) :
    Lands i k (p >>= f) R := fun s start inside =>
  bind_at (hp s start inside) fun a t le lt q =>
    (hf a t.pos le q t rfl lt).mono le fun _ _ _ _ r => r

theorem map {r : α → β} (hp : Lands i k p fun a => R (r a)) : Lands i k (r <$> p) R := by
  intro s start inside
  change ((p >>= fun a => Pure.pure (r a)) i s).Lands i k R
  exact bind_at (hp s start inside) fun a t le lt q => ⟨le, lt, q⟩

theorem ite {c : Prop} [Decidable c] {q : Parser α} (yes : c → Lands i k p Q)
    (no : ¬ c → Lands i k q Q) : Lands i k (if c then p else q) Q := by
  by_cases h : c
  · rw [if_pos h]
    exact yes h
  · rw [if_neg h]
    exact no h

/-- A part that may be left out. -/
theorem when {c : Prop} [Decidable c] {q : Parser β} (hp : c → Moves i k p)
    (hq : ∀ n, k ≤ n → Lands i n q R) : Lands i k (if c then p >>= fun _ => q else q) R :=
  ite (fun h => bind (hp h) fun _ n le _ => hq n le) fun _ => hq k (Nat.le_refl k)

theorem stay {a : α} : Moves i k (Pure.pure a) := pure fun _ => trivial

theorem after {f : α → Parser β} (hp : Moves i k p) (hf : ∀ a {n}, Moves i n (f a)) :
    Moves i k (p >>= f) := bind hp fun a _ _ _ => hf a

/-! ## Readers that only look -/

theorem look_at (hp : Looks p) (hf : ∀ a, (f a i s).Lands i k R) :
    ((p >>= f) i s).Lands i k R := by
  obtain ⟨a, looked⟩ := hp i s
  simp only [Bind.bind]
  rw [looked]
  exact hf a

theorem look (hp : Looks p) (hf : ∀ a, Lands i k (f a) R) : Lands i k (p >>= f) R :=
  fun s start inside => look_at hp fun a => hf a s start inside

theorem peekKind {f : TokenKind → Parser β}
    (hf : ∀ kind, i.kindAt k = kind → Lands i k (f kind) R) :
    Lands i k (Parser.peekKind >>= f) R := by
  rintro s rfl inside
  exact hf _ rfl s rfl inside

theorem peek {f : Token → Parser β}
    (hf : ∀ token, i.kindAt k = token.kind → Lands i k (f token) R) :
    Lands i k (Parser.peek >>= f) R := by
  rintro s rfl inside
  have same : i.kindAt s.pos = (i.tokenAt s.pos).kind := by
    simp [Input.tokenAt, Input.kindAt, inside]
  exact hf _ same s rfl inside

theorem here {f : Span → Parser β} (hf : Lands i k (f (i.tokenAt k).span) R) :
    Lands i k (Parser.here >>= f) R := by
  rintro s rfl inside
  exact hf s rfl inside

theorem here_at {f : Span → Parser β} (hf : (f (i.tokenAt s.pos).span i s).Lands i k R) :
    ((Parser.here >>= f) i s).Lands i k R := hf

theorem previous {f : Span → Parser β} (behind : 0 < k)
    (hf : Lands i k (f (i.tokenAt (k - 1)).span) R) : Lands i k (Parser.previous >>= f) R := by
  rintro s rfl inside
  have look : (Parser.previous >>= f) i s = f (i.tokenAt (s.pos - 1)).span i s := by
    unfold Parser.previous
    rw [bind_look, if_neg (Nat.ne_of_gt behind)]
  rw [look]
  exact hf s rfl inside

theorem spanFrom {start : Span} {f : Span → Parser β} (behind : 0 < k)
    (hf : Lands i k (f (start.merge (i.tokenAt (k - 1)).span)) R) :
    Lands i k (Parser.spanFrom start >>= f) R := by
  rintro s rfl inside
  exact previous (f := fun last => f (start.merge last)) behind hf s rfl inside

/-- Before the first token. -/
theorem spanFrom_zero {start : Span} {f : Span → Parser β}
    (hf : Lands i 0 (f (start.merge Span.start)) R) :
    Lands i 0 (Parser.spanFrom start >>= f) R := by
  intro s place inside
  have look : (Parser.spanFrom start >>= f) i s =
      f (start.merge (if s.pos = 0 then Span.start else (i.tokenAt (s.pos - 1)).span)) i s := rfl
  rw [look, if_pos place]
  exact hf s place inside

/-- A condition on the current token. -/
theorem test {c : TokenKind → Bool} {f : Bool → Parser β}
    (yes : c (i.kindAt k) = true → Lands i k (f true) R)
    (no : c (i.kindAt k) = false → Lands i k (f false) R) :
    Lands i k ((Parser.peekKind >>= fun kind => Pure.pure (c kind)) >>= f) R := by
  rintro s rfl inside
  change (f (c (i.kindAt s.pos)) i s).Lands i s.pos R
  cases h : c (i.kindAt s.pos) with
  | true => exact yes h s rfl inside
  | false => exact no h s rfl inside

theorem check {x : Punct} {f : Bool → Parser β}
    (yes : (i.kindAt k).isPunct x = true → Lands i k (f true) R)
    (no : (i.kindAt k).isPunct x = false → Lands i k (f false) R) :
    Lands i k (Parser.check x >>= f) R := test yes no

theorem checkKeyword {w : Keyword} {f : Bool → Parser β}
    (yes : (i.kindAt k).isKeyword w = true → Lands i k (f true) R)
    (no : (i.kindAt k).isKeyword w = false → Lands i k (f false) R) :
    Lands i k (Parser.checkKeyword w >>= f) R := test yes no

/-! ## Readers that fail -/

theorem fail : Lands i k (Parser.fail : Parser α) Q := by
  rintro s rfl inside
  exact ⟨Nat.le_refl _, inside⟩

theorem failAt (code : ErrorCode) (message : String) (span : Span) :
    Lands i k (Parser.failAt code message span : Parser α) Q := by
  rintro s rfl inside
  exact ⟨Nat.le_refl _, inside⟩

theorem failHere (code : ErrorCode) (message : String) :
    Lands i k (Parser.failHere code message : Parser α) Q := by
  rintro s rfl inside
  exact ⟨Nat.le_refl _, inside⟩

theorem unexpected (message : String → String) :
    Lands i k (Parser.unexpected message : Parser α) Q := by
  rintro s rfl inside
  exact ⟨Nat.le_refl _, inside⟩

theorem unsupported (what : String) (span : Span) :
    Lands i k (Parser.unsupported what span : Parser α) Q := failAt _ _ _

/-- What stands behind a failure does not matter. -/
theorem failing (code : ErrorCode) (message : String) (span : Span) :
    Lands i k ((Parser.failAt code message span : Parser α) >>= f) R := by
  rintro s rfl inside
  exact ⟨Nat.le_refl _, inside⟩

theorem reportAt (code : ErrorCode) (message : String) (span : Span) :
    Moves i k (Parser.reportAt code message span) := by
  rintro s rfl inside
  exact ⟨Nat.le_refl _, inside, trivial⟩

theorem report (code : ErrorCode) (message : String) : Moves i k (Parser.report code message) :=
  look .here fun _ => reportAt _ _ _

/-! ## Readers that take a token -/

/-- At the end of the file the cursor stays. -/
theorem advanceAny : Moves i k Parser.advance := by
  rintro s rfl inside
  unfold Parser.advance Outcome.Lands
  dsimp only
  refine ⟨?_, ?_, trivial⟩
  all_goals split <;> omega

theorem eatAny {x : Punct} : Moves i k (Parser.eat x) :=
  look (.check _) fun _ => ite (fun _ => after advanceAny fun _ => stay) fun _ => stay

section

variable (closed : i.Closed)

include closed

/-- The current token is taken. -/
theorem advance {f : Token → Parser β} (live : i.kindAt k ≠ .eof)
    (hf : Lands i (k + 1) (f (i.tokenAt k)) R) : Lands i k (Parser.advance >>= f) R := by
  rintro s rfl inside
  have more := closed s.pos live
  have taken : Parser.advance i s = .parsed (i.tokenAt s.pos) { s with pos := s.pos + 1 } := by
    unfold Parser.advance
    rw [if_pos more]
  simp only [Bind.bind]
  rw [taken]
  exact (hf { s with pos := s.pos + 1 } rfl more).mono (Nat.le_succ _) fun _ _ _ _ r => r

theorem eatKind {c : TokenKind → Bool} {f : Bool → Parser β} (last : c .eof = false)
    (yes : c (i.kindAt k) = true → Lands i (k + 1) (f true) R) (no : Lands i k (f false) R) :
    Lands i k ((Parser.peekKind >>= fun k => Pure.pure (c k)) >>= fun b =>
      (if b then Parser.advance >>= fun _ => Pure.pure true else Pure.pure false) >>= f) R := by
  refine test (fun h => ?_) fun _ => no
  exact advance (f := fun _ => f true) closed (TokenKind.ne_eof h last) (yes h)

theorem eat {x : Punct} {f : Bool → Parser β} (yes : Lands i (k + 1) (f true) R)
    (no : Lands i k (f false) R) : Lands i k (Parser.eat x >>= f) R :=
  eatKind (c := (·.isPunct x)) closed rfl (fun _ => yes) no

theorem eatKeyword {w : Keyword} {f : Bool → Parser β} (yes : Lands i (k + 1) (f true) R)
    (no : Lands i k (f false) R) : Lands i k (Parser.eatKeyword w >>= f) R :=
  eatKind (c := (·.isKeyword w)) closed rfl (fun _ => yes) no

theorem expectKind {matches' : TokenKind → Bool} {shown : String} {closer : Bool}
    {f : Token → Parser β} (no : matches' .eof = false)
    (hf : Lands i (k + 1) (f (i.tokenAt k)) R) :
    Lands i k (Parser.expectKind matches' shown closer >>= f) R := by
  intro s start inside
  refine bind_at (Q := fun token n => token = i.tokenAt k ∧ n = k + 1) ?_ ?_
  · refine peekKind (fun kind here => ite (fun h => ?_) fun _ => failHere _ _) s start inside
    have live : i.kindAt k ≠ .eof := here ▸ TokenKind.ne_eof h no
    exact advance (f := Pure.pure) closed live (pure fun _ => ⟨rfl, rfl⟩)
  · rintro token t - lt ⟨rfl, place⟩
    exact (hf t place (place ▸ lt)).mono (Nat.le_succ _) fun _ _ _ _ r => r

theorem expect {x : Punct} {f : Token → Parser β} (hf : Lands i (k + 1) (f (i.tokenAt k)) R) :
    Lands i k (Parser.expect x >>= f) R := expectKind closed rfl hf

theorem expectKeyword {w : Keyword} {f : Token → Parser β}
    (hf : Lands i (k + 1) (f (i.tokenAt k)) R) : Lands i k (Parser.expectKeyword w >>= f) R :=
  expectKind closed rfl hf

theorem expectWord {word : String} {f : Token → Parser β}
    (hf : Lands i (k + 1) (f (i.tokenAt k)) R) : Lands i k (Parser.expectWord word >>= f) R :=
  expectKind closed rfl hf

/-- A name is the token that is taken. -/
theorem identifier : Lands i k Parser.expectIdentifier fun id n =>
    id.span = (i.tokenAt k).span ∧ n = k + 1 := by
  refine peekKind fun kind here => ?_
  split
  · exact advance closed (by simp [here]) (pure fun _ => ⟨rfl, rfl⟩)
  · exact unexpected _

theorem expectIdentifier {f : Ident → Parser β}
    (hf : ∀ name, Lands i (k + 1) (f ⟨name, (i.tokenAt k).span⟩) R) :
    Lands i k (Parser.expectIdentifier >>= f) R := by
  refine bind (identifier closed) ?_
  rintro ⟨name, _⟩ _ _ ⟨rfl, rfl⟩
  exact hf name

theorem propertyName : Lands i k Parser.expectPropertyName fun id n =>
    id.span = (i.tokenAt k).span ∧ n = k + 1 := by
  refine peekKind fun kind here => ?_
  cases h : kind.propertyName? with
  | some name => exact advance closed (live_of_found here h) (pure fun _ => ⟨rfl, rfl⟩)
  | none => exact unexpected _

theorem expectPropertyName {f : Ident → Parser β}
    (hf : ∀ name, Lands i (k + 1) (f ⟨name, (i.tokenAt k).span⟩) R) :
    Lands i k (Parser.expectPropertyName >>= f) R := by
  refine bind (propertyName closed) ?_
  rintro ⟨name, _⟩ _ _ ⟨rfl, rfl⟩
  exact hf name

theorem expectString : Moves i k Parser.expectString := by
  refine peekKind fun kind here => ?_
  split
  · exact advance closed (by simp [here]) stay
  · exact unexpected _

theorem semicolon : Moves i k Parser.semicolon :=
  eat closed stay (look .peek fun _ => ite (fun _ => stay)
    fun _ => report _ _)

omit closed in
theorem skipGroup : Moves i k Parser.skipGroup := by
  rintro s rfl inside
  unfold Parser.skipGroup
  rw [bind_look]
  cases h : i.matchingClose s.pos with
  | some close =>
    have behind := (closeFrom_eq_some h).1
    refine ⟨?_, ?_, trivial⟩ <;> dsimp only <;> omega
  | none => exact look .peekKind (fun _ => failHere _ _) s rfl inside

end

/-! ## Nesting and speculation -/

theorem finally' {change : State → State} (hp : Lands i k p Q)
    (pos : ∀ s, (change s).pos = s.pos) : Lands i k (Parser.finally' p change) Q := by
  intro s start inside
  have whole := hp s start inside
  unfold Parser.finally'
  cases h : p i s with
  | parsed a t =>
    rw [h] at whole
    unfold Outcome.Lands at whole ⊢
    dsimp only
    rwa [pos]
  | failed t =>
    rw [h] at whole
    unfold Outcome.Lands at whole ⊢
    dsimp only
    rwa [pos]
  | exhausted t => trivial

/-- What a reader gives depends on the state, but not where it stops or whether that holds of it. -/
theorem update {change : State → State} {q : Parser α} (hq : Lands i k q Q)
    (pos : ∀ s, (change s).pos = s.pos) :
    Lands i k (Parser.update change >>= fun _ => q) Q := by
  intro s start inside
  exact hq (change s) ((pos s).trans start) inside

theorem nested (hp : Lands i k p Q) : Lands i k (Parser.nested p) Q :=
  look (.look _) fun _ => ite (fun _ => update (finally' hp fun _ => rfl) fun _ => rfl)
    fun _ => failHere _ _

theorem allowIn (hp : Lands i k p Q) : Lands i k (Parser.allowIn p) Q :=
  look (.look _) fun _ => update (finally' hp fun _ => rfl) fun _ => rfl

theorem forbidIn (hp : Lands i k p Q) : Lands i k (Parser.forbidIn p) Q :=
  update (finally' hp fun _ => rfl) fun _ => rfl

theorem attempt_at {f : Option α → Parser β} (first : (p i s).Lands i k Q)
    (parsed : ∀ a t, k ≤ t.pos → t.pos < i.tokens.size → Q a t.pos → (f (some a) i t).Lands i k R)
    (failed : ∀ t, k ≤ t.pos → t.pos < i.tokens.size → (f none i t).Lands i k R) :
    ((Parser.attempt p >>= f) i s).Lands i k R := by
  simp only [Bind.bind, Parser.attempt]
  cases h : p i s with
  | parsed a t =>
    rw [h] at first
    exact parsed a t first.1 first.2.1 first.2.2
  | failed t =>
    rw [h] at first
    exact failed t first.1 first.2
  | exhausted t => trivial

/-- After a failure reading goes on where it stopped. -/
theorem attempt {f : Option α → Parser β} (hp : Lands i k p Q)
    (parsed : ∀ a n, k ≤ n → Q a n → Lands i n (f (some a)) R)
    (failed : ∀ n, k ≤ n → Lands i n (f none) R) : Lands i k (Parser.attempt p >>= f) R := by
  intro s start inside
  refine attempt_at (hp s start inside) (fun a t le lt q => ?_) fun t le lt => ?_
  · exact (parsed a t.pos le q t rfl lt).mono le fun _ _ _ _ r => r
  · exact (failed t.pos le t rfl lt).mono le fun _ _ _ _ r => r

/-- What is read from a place on that is remembered. -/
theorem checkpoint {f : Checkpoint → Parser β}
    (h : ∀ s : State, s.pos = k → k < i.tokens.size → ∀ c : Checkpoint, c.pos = k →
      (f c i s).Lands i k R) : Lands i k (Parser.checkpoint >>= f) R := fun s start inside =>
  h s start inside ⟨s.pos, s.found.total⟩ start

/-- Reading goes back to the place that was remembered. -/
theorem rewind {q : Parser β} {c : Checkpoint} (hq : Lands i k q R) (back : c.pos = k)
    (inside : k < i.tokens.size) : ((Parser.rewind c >>= fun _ => q) i t).Lands i k R :=
  hq { t with pos := c.pos, found := t.found.truncate c.total } back inside

/-! ## Loops -/

theorem rounds {body : β → Parser (Round β γ)} {I : β → Nat → Prop} {T : γ → Nat → Prop}
    (round : ∀ acc n, k ≤ n → I acc n → Lands i n (body acc) (Round.Keeps I T)) (fuel : Nat)
    (acc : β) (le : k ≤ n) (start : I acc n) : Lands i n (Parser.rounds body fuel acc) T := by
  induction fuel generalizing acc n with
  | zero => exact fun _ _ _ => trivial
  | succ fuel ih =>
    refine look (.look _) fun _ => bind (round acc n le start) fun r m le' keeps => ?_
    cases r with
    | again acc' =>
      exact look (.look _) fun _ => ite (fun _ => ih acc' (Nat.le_trans le le') keeps)
        fun _ _ _ _ => trivial
    | done result => exact pure fun _ => keeps

/-- An invariant that every round keeps. -/
theorem loop {body : β → Parser (Round β γ)} {acc : β} (I : β → Nat → Prop) {T : γ → Nat → Prop}
    (start : I acc k)
    (round : ∀ acc n, k ≤ n → I acc n → Lands i n (body acc) (Round.Keeps I T)) :
    Lands i k (Parser.loop acc body) T := fun s =>
  rounds round _ acc (Nat.le_refl k) start s

/-- A loop whose rounds stop behind where they started. -/
theorem moving {body : β → Parser (Round β γ)} {acc : β} (round : ∀ acc n, Moves i n (body acc)) :
    Moves i k (Parser.loop acc body) :=
  loop (fun _ _ => True) trivial fun acc n _ _ => (round acc n).imp fun r _ _ _ _ => by
    cases r <;> trivial

theorem commaList (closed : i.Closed) {close : Punct} {item : Parser α}
    {nodes : α → List SyntaxNode}
    (h : ∀ n, YieldsAll i n item nodes) :
    YieldsAll i k (Parser.commaList close item) fun xs => xs.flatMap nodes := by
  refine loop (fun acc n => Standing i k n (acc.flatMap nodes)) .nil fun acc n le all => ?_
  refine look (.check _) fun _ => look .atEnd fun _ =>
    ite (fun _ => pure fun _ => all.reverse_flatMap) fun _ => bind (h n) fun x n' le' hx => ?_
  have all := all.push hx (by omega)
  exact eat closed (pure fun _ => all.mono (by omega)) (pure fun _ => all.reverse_flatMap)

theorem commaListMoves (closed : i.Closed) {close : Punct} {item : Parser α}
    (h : ∀ n, Moves i n item) : Moves i k (Parser.commaList close item) := by
  have none (n : Nat) : YieldsAll i n item fun _ => [] := (h n).imp fun _ _ _ _ _ => .nil
  exact (commaList closed none).moves

theorem synchronize : Moves i k Parser.synchronize := by
  refine look (.look _) fun start => moving fun _ n => look .peek fun token => ?_
  refine look (.look _) fun moved => ite (fun _ => stay) fun _ =>
    ite (fun _ => ?_) fun _ => ite (fun _ => stay) fun _ => ?_
  · exact after advanceAny fun _ => stay
  · exact after advanceAny fun _ => stay

end Lands

/-! ## The nonterminals -/

/-- What the nonterminals give stands between the tokens that they take. -/
structure Grammar.Nests (i : Input) (g : Grammar) : Prop where
  closed : i.Closed
  tokens : i.Ordered
  statement : ∀ {k}, Yields i k g.statement .stmt
  assignment : ∀ {k}, Yields i k g.assignment .expr
  binary : ∀ {k} least, Yields i k (g.binary least) .expr
  unary : ∀ {k}, Yields i k g.unary .expr
  newExpr : ∀ {k}, i.kindAt k ≠ .eof → Yields i k g.newExpr .expr
  pattern : ∀ {k}, TakesAll i k g.pattern Pattern.nodes
  element : ∀ {k}, Yields i k g.element .element
  type : ∀ {k}, Moves i k g.type
  postfixType : ∀ {k}, Moves i k g.postfixType
  primaryType : ∀ {k}, Moves i k g.primaryType

/-! ## Types -/

namespace Grammar.Nests

open Lands

variable {g : Grammar} (ready : g.Nests i)

include ready

theorem typeArguments : Moves i k g.typeArguments := by
  have closed := ready.closed
  refine .expect closed (.after (.moving fun _ _ => ?_) fun _ =>
    .expect closed .stay)
  exact .after ready.type fun _ => .after .eatAny fun _ => .look (.check _) fun _ =>
    .ite (fun _ => .stay) fun _ => .stay

theorem typeParameters : Moves i k g.typeParameters := by
  have closed := ready.closed
  refine .expect closed (.after (.commaListMoves closed fun n => ?_) fun _ =>
    .expect closed .stay)
  refine .look (.checkKeyword _) fun _ => .look (.checkWord _) fun _ =>
    .look (.checkKeyword _) fun _ => .look (.ahead _) fun _ => .when (fun _ => .advanceAny)
    fun n _ => .expectIdentifier closed fun _ => ?_
  have default {n : Nat} : Moves i n (do
      if ← Parser.eat .eq then g.type) :=
    .eat closed ready.type .stay
  exact .eatKeyword closed (.after ready.type fun _ => default) default

theorem typeParametersIfAny : Moves i k g.typeParametersIfAny :=
  .look (.check _) fun _ => .ite (fun _ => ready.typeParameters) fun _ => .stay

theorem annotation : Moves i k g.annotation :=
  .eat ready.closed ready.type .stay

theorem typePredicate : Moves i k g.typePredicate :=
  .look .peek fun _ => .ite (fun _ => .after .advanceAny fun _ => ready.type)
    fun _ => .stay

theorem qualifiedRest : Moves i k g.qualifiedRest := by
  have closed := ready.closed
  refine .after (.moving fun _ _ => ?_) fun _ => .look (.check _) fun _ =>
    .ite (fun _ => ready.typeArguments) fun _ => .stay
  exact .eat closed (.expectPropertyName closed fun _ => .stay)
    .stay

theorem functionType : Moves i k g.functionType := by
  have closed := ready.closed
  have rest {n : Nat} : Moves i n (do
      skipGroup
      let _ ← Parser.expect .arrow
      g.type) :=
    .after .skipGroup fun _ => .expect closed ready.type
  exact .look (.check _) fun _ => .ite (fun _ => .expect closed rest) fun _ => rest

theorem namedType (word : String) : Moves i k (g.namedType word) := by
  refine .look (.ahead _) fun _ => .after .advanceAny fun _ => ?_
  refine .ite (fun _ => ready.postfixType) fun _ => .ite (fun _ => ?_) fun _ =>
    .ite (fun _ => ?_) fun _ => .ite (fun _ => ready.primaryType) fun _ => ?_
  · exact .after .advanceAny fun _ => .stay
  · exact .after .advanceAny fun _ => ready.typePredicate
  · exact .after ready.qualifiedRest fun _ => ready.typePredicate

theorem parenthesizedType : Moves i k g.parenthesizedType :=
  .look (.afterGroup _) fun _ => .ite (fun _ => ready.functionType) fun _ =>
    .after .advanceAny fun _ => .after ready.type fun _ =>
    .expect ready.closed .stay

theorem templateType : Moves i k g.templateType := by
  refine .moving fun _ _ => .after ready.type fun _ => .look .peekKind fun kind => ?_
  split
  · exact .after .advanceAny fun _ => .stay
  · exact .after .advanceAny fun _ => .stay
  · exact .unexpected _

theorem primaryTypeBody : Moves i k g.primaryTypeBody := by
  have closed := ready.closed
  have invalid : Moves i k primaryTypeBody.invalid := .unexpected _
  have taken {n : Nat} : Moves i n (do
      let _ ← Parser.advance) :=
    .after .advanceAny fun _ => .stay
  refine .look .peekKind fun kind => ?_
  split
  case h_1 => exact ready.namedType _
  case h_2 | h_3 | h_4 => exact taken
  case h_5 => exact .after .advanceAny fun _ => ready.templateType
  case h_6 =>
    refine .ite (fun _ => ?_) fun _ => .ite (fun _ => ?_) fun _ => .ite (fun _ => taken)
      fun _ => invalid
    · exact .after .advanceAny fun _ => .expectPropertyName closed fun _ =>
        ready.qualifiedRest
    · exact .after .advanceAny fun _ => .after ready.typeParametersIfAny fun _ =>
        ready.functionType
  case h_7 =>
    refine .look (.ahead _) fun next => ?_
    split
    · exact .after .advanceAny fun _ => taken
    · exact invalid
  case h_8 | h_9 => exact .skipGroup
  case h_10 => exact ready.parenthesizedType
  case h_11 => exact .after ready.typeParameters fun _ => ready.functionType
  case h_12 => exact invalid

theorem postfixTypeBody : Moves i k g.postfixTypeBody := by
  refine .after ready.primaryType fun _ => .moving fun _ _ => .look .peek fun _ =>
    .ite (fun _ => ?_) fun _ => .stay
  refine .after .advanceAny fun _ => .after .eatAny fun _ => .ite (fun _ => ?_)
    fun _ => .stay
  exact .after ready.type fun _ => .expect ready.closed .stay

theorem unionType : Moves i k g.unionType := by
  refine .look .peekKind fun _ => .when (fun _ => .advanceAny) fun _ _ =>
    .after ready.postfixType fun _ => .moving fun _ _ => .look .peekKind fun _ => ?_
  exact .ite (fun _ => .after .advanceAny fun _ => .after ready.postfixType fun _ =>
    .stay) fun _ => .stay

theorem typeBody : Moves i k g.typeBody := by
  have closed := ready.closed
  refine .nested (.after ready.unionType fun _ => .look .peek fun _ => .ite (fun _ => ?_)
    fun _ => .stay)
  exact .after .advanceAny fun _ => .after ready.unionType fun _ =>
    .expect closed (.after ready.type fun _ => .expect closed ready.type)

omit ready in
theorem ambientRest : Moves i k Grammar.ambientRest := by
  have skipped {b : Round Bool Unit} {n : Nat} : Moves i n (skipGroup >>= fun _ => Pure.pure b) :=
    .after .skipGroup fun _ => .stay
  refine .moving fun first _ => .look .peek fun _ => .ite (fun _ => .stay)
    fun _ => .ite (fun _ => skipped) fun _ => .ite (fun _ => skipped) fun _ => ?_
  exact .after .advanceAny fun _ => .ite (fun _ => .stay) fun _ => .stay

/-- A declaration of types takes a token. -/
theorem typeDeclaration (live : i.kindAt k ≠ .eof) :
    Lands i k g.typeDeclaration fun _ n => k < n := by
  have closed := ready.closed
  refine .advance closed live (Lands.imp (Q := fun _ _ => True) ?_ fun _ _ le _ _ => le)
  refine .ite (fun _ => ?_) fun _ => .ite (fun _ => ?_) fun _ => ambientRest
  · exact .expectIdentifier closed fun _ => .after ready.typeParametersIfAny fun _ =>
      .expect closed (.after ready.type fun _ => .semicolon closed)
  · refine .expectIdentifier closed fun _ => .after ready.typeParametersIfAny fun _ {_} => ?_
    have rest {n : Nat} : Moves i n (do
        if !(← Parser.check .lBrace) then
          let _ ← Parser.expect .lBrace
        skipGroup) :=
      .look (.check _) fun _ => .ite (fun _ => .expect closed .skipGroup) fun _ => .skipGroup
    refine .eatKeyword closed ?_ ?_
    · refine .after (.moving fun _ _ => ?_) fun _ => rest
      exact .after ready.type fun _ => .after .eatAny fun _ =>
        .ite (fun _ => .stay) fun _ => .stay
    · exact rest

end Grammar.Nests

end TsxPreview.Parser
