import TsxPreview.Proofs.Syntax.Formulas.Spelling
import TsxPreview.Proofs.Syntax.Height.Statements
import TsxPreview.Proofs.Syntax.Termination

/-!
The tokens of a formula are parsed as that formula. How far the reading of an expression goes is a
matter of how tightly the next token binds: each level of the grammar stops in front of tokens that
bind looser. A chain of operators, members or calls is read by a loop, and what is said of a formula
that such a loop reads is how the loop goes on behind it.
-/

namespace TsxPreview.Parser

/-! ## Tokens in a row -/

/-- All tokens stand on one line; none opens a block or belongs to an arrow function. -/
structure Input.Plain (i : Input) : Prop where
  closed : i.Closed
  sameLine : ∀ m, i.kindAt m ≠ .eof → (i.tokenAt m).newlineBefore = false
  noArrow : ∀ m, i.kindAt m ≠ .punct .arrow
  noBrace : ∀ m, i.kindAt m ≠ .punct .lBrace

/-- From `m` up to `n` stand tokens of these kinds. -/
def Input.Shows (i : Input) : Nat → List TokenKind → Nat → Prop
  | m, [], n => m = n
  | m, kind :: kinds, n => i.kindAt m = kind ∧ i.Shows (m + 1) kinds n

variable {i : Input} {s : State} {m n p fuel rank d : Nat} {kind : TokenKind}
  {kinds kinds' : List TokenKind}

theorem Input.shows_append : i.Shows m (kinds ++ kinds') n ↔
    ∃ p, i.Shows m kinds p ∧ i.Shows p kinds' n := by
  induction kinds generalizing m with
  | nil => simp [Input.Shows]
  | cons kind kinds ih => simp [Input.Shows, ih, and_assoc]

theorem Input.Shows.le (h : i.Shows m kinds n) : m + kinds.length = n := by
  induction kinds generalizing m with
  | nil => exact h
  | cons kind kinds ih =>
    have := ih h.2
    simp only [List.length_cons]
    omega

/-! ### Fuel -/

theorem Enough.behind (h : Enough i (fuel + 1) m rank) (inside : m < i.tokens.size) (lt : m < p) :
    Enough i fuel p 15 := by
  unfold Enough at *
  omega

theorem Enough.pred (h : Enough i (fuel + 1) m (rank + 1)) : Enough i fuel m rank := by
  unfold Enough at *
  omega

theorem Enough.succ (h : Enough i fuel m rank) : Enough i (fuel + 1) m rank := by
  unfold Enough at *
  omega

/-! ## How tightly tokens bind -/

/-- How tightly the token binds what stands before it, on the scale of the printer. A token that ends
any expression does not bind, and one that no formula goes on with binds tightest. -/
def pull : TokenKind → Nat
  | .punct p =>
    match p with
    | .rParen | .rBracket | .colon | .semicolon => 0
    | .comma => Printer.sequenceLevel
    | .eq | .plusEq | .minusEq | .starEq | .slashEq | .percentEq | .ampAmpEq | .pipePipeEq
    | .questionQuestionEq => Printer.assignLevel
    | .question => Printer.conditionalLevel
    | .pipePipe | .questionQuestion => Printer.nullishLevel
    | .ampAmp => Printer.andLevel
    | .eqEq | .bangEq | .eqEqEq | .bangEqEq => 9
    | .greater | .lessEq | .greaterEq => 10
    | .plus | .minus => 12
    | .star | .slash | .percent => 13
    | .starStar => 14
    | .plusPlus | .minusMinus => Printer.postfixLevel
    | .dot | .questionDot | .lBracket | .lParen => Printer.callLevel
    | _ => Printer.primaryLevel
  | .keyword .in => 10
  | .templateMiddle _ | .templateTail _ => 0
  | _ => Printer.primaryLevel

/-- The level of the printer for a precedence of the parser. -/
def levelOf : Nat → Nat
  | 0 | 1 => Printer.nullishLevel
  | 2 => Printer.andLevel
  | 3 => 9
  | 4 => 10
  | 5 => 12
  | 6 => 13
  | 7 => 14
  | _ => Printer.unaryLevel

theorem levelOf_min (a : Nat) : levelOf a = levelOf (min a 8) := by
  rcases Nat.lt_or_ge a 8 with lt | ge
  · rw [Nat.min_eq_left (by omega)]
  · obtain ⟨a, rfl⟩ := Nat.exists_eq_add_of_le' ge
    rw [Nat.min_eq_right ge]
    rfl

theorem levelOf_mono {a b : Nat} (le : a ≤ b) : levelOf a ≤ levelOf b := by
  have table : ∀ a < 9, ∀ b < 9, a ≤ b → levelOf a ≤ levelOf b := by decide
  rw [levelOf_min a, levelOf_min b]
  exact table _ (by omega) _ (by omega) (by omega)

theorem levelOf_le (a : Nat) : levelOf a ≤ Printer.unaryLevel := by
  rw [levelOf_min]
  exact levelOf_mono (Nat.min_le_right _ _)

/-- The precedence of an operator in the parser. -/
theorem infixOp?_kind (op : InfixOp) : ∃ prec, infixOp? op.kind = some (prec, op) ∧
    levelOf prec = op.level ∧ 0 < prec ∧ prec < 8 := by
  obtain op | op := op <;> cases op <;> exact ⟨_, rfl, by decide⟩

theorem pull_kind {op : InfixOp} (notLess : op ≠ .binary .less) : pull op.kind = op.level := by
  obtain op | op := op <;> cases op <;> first | rfl | exact absurd rfl notLess

/-- A token that binds looser than a precedence is no operator of it. -/
theorem lt_of_infixOp? {prec least : Nat} {op : InfixOp} (found : infixOp? kind = some (prec, op))
    (loose : pull kind < levelOf least) : prec < least := by
  have level : levelOf prec ≤ pull kind := by
    unfold infixOp? at found
    split at found <;> cases found <;> decide
  rcases Nat.lt_or_ge prec least with lt | ge
  · exact lt
  · have := levelOf_mono ge
    omega

theorem updateOp?_of_pull (loose : pull kind < Printer.postfixLevel) : updateOp? kind = none := by
  unfold updateOp?
  split <;> first | rfl | exact absurd loose (by decide)

theorem assignOp?_of_pull (loose : pull kind < Printer.assignLevel) : assignOp? kind = none := by
  unfold assignOp?
  split <;> first | rfl | exact absurd loose (by decide)

theorem isPunct_of_pull {p : Punct} {least : Nat} (loose : pull kind < least)
    (tight : least ≤ pull (.punct p)) : kind.isPunct p = false := by
  cases same : kind.isPunct p with
  | false => rfl
  | true =>
    rw [TokenKind.eq_punct same] at loose
    omega

theorem isKeyword_of_pull {k : Keyword} {least : Nat} (loose : pull kind < least)
    (tight : least ≤ pull (.keyword k)) : kind.isKeyword k = false := by
  cases same : kind.isKeyword k with
  | false => rfl
  | true =>
    have eq : kind = .keyword k := by cases kind <;> simp_all [TokenKind.isKeyword]
    rw [eq] at loose
    omega

theorem isWord_of_pull {name : String} (loose : pull kind < Printer.primaryLevel) :
    kind.isWord name = false := by
  cases kind <;> first | rfl | exact absurd loose (Nat.lt_irrefl _)

theorem ne_eof_of_pull (loose : pull kind < Printer.primaryLevel) : kind ≠ .eof := by
  rintro rfl
  exact absurd loose (Nat.lt_irrefl _)

namespace Grammar

variable (g : Grammar)

/-- The rounds of `callOrMember`. -/
def callRound (expr : Expr) : Parser (Round Expr Expr) := do
  let token ← peek
  match token.kind with
  | .punct .dot =>
    let _ ← advance
    return .again (← namedMember expr false)
  | .punct .questionDot => return .again (← g.optionalMember expr)
  | .punct .lBracket => return .again (← indexedMember expr false (allowIn g.expression))
  | .punct .lParen => return .again (← g.callOf expr false)
  | .punct .less =>
    if ← g.typeArgumentsOfCall then return .again expr else return .done expr
  | .punct .bang =>
    if token.newlineBefore then return .done expr
    else
      let _ ← advance
      return .again expr
  | .templateWhole _ | .templateHead _ =>
    if token.newlineBefore then return .done expr
    else unsupported "tagged templates" token.span
  | _ => return .done expr

theorem callOrMember_eq : g.callOrMember = (do
    let first ← if ← checkKeyword .new then g.newExpr else g.primary
    loop first g.callRound) := rfl

/-- The rounds of `binaryBody`. -/
def binaryRound (least : Nat) (left : Expr) : Parser (Round Expr Expr) := do
  let token ← peek
  let isCast := token.kind.isWord "as" || token.kind.isWord "satisfies"
  if isCast && !token.newlineBefore && least ≤ relational then
    g.cast
    return .again (left.withSpan (← spanFrom left.span))
  if token.kind.isKeyword .instanceof then
    unsupported "instanceof checks" token.span
  match infixOp? token.kind with
  | none => return .done left
  | some (prec, op) =>
    let noIn ← look fun _ s => s.noIn
    if prec < least || (noIn && token.kind.isKeyword .in) then return .done left
    let _ ← advance
    let right ← g.binary (op.rightLevel prec)
    return .again (op.apply left right)

theorem binaryBody_eq (least : Nat) : g.binaryBody least = (do
    let first ← g.unary
    loop first (g.binaryRound least)) := rfl

end Grammar

/-! ## What is read -/

/-- The first token of a formula that starts with no operator. -/
def opensPrimary : TokenKind → Bool
  | .string _ | .templateWhole _ | .templateHead _ | .punct .lParen => true
  | .keyword k => k == .true || k == .false || k == .null
  | .identifier name => name != "await" && name != "async"
  | _ => false

def opensOperand (kind : TokenKind) : Bool := opensPrimary kind || kind.isKeyword .new

def opensFormula (kind : TokenKind) : Bool :=
  opensOperand kind || (unaryOp? kind).isSome || (updateOp? kind).isSome

/-- The first of the tokens is of such a kind. -/
def Opens (f : TokenKind → Bool) (kinds : List TokenKind) : Prop :=
  ∃ kind rest, kinds = kind :: rest ∧ f kind = true

theorem Opens.imp {f f' : TokenKind → Bool} (h : Opens f kinds)
    (le : ∀ kind, f kind = true → f' kind = true) : Opens f' kinds := by
  obtain ⟨kind, rest, eq, opens⟩ := h
  exact ⟨kind, rest, eq, le kind opens⟩

theorem Opens.append {f : TokenKind → Bool} (h : Opens f kinds) : Opens f (kinds ++ kinds') := by
  obtain ⟨kind, rest, rfl, opens⟩ := h
  exact ⟨kind, rest ++ kinds', rfl, opens⟩

theorem Opens.at {f : TokenKind → Bool} (h : Opens f kinds) (shows : i.Shows m kinds n) :
    f (i.kindAt m) = true := by
  obtain ⟨kind, rest, rfl, opens⟩ := h
  rw [shows.1]
  exact opens

/-- A state in which a formula that opens so many constructs can be read. -/
structure State.Ready (d : Nat) (s : State) : Prop where
  noIn : s.noIn = false
  found : s.found = .empty
  room : s.depth + d ≤ nestingLimit

/-- Wherever the tokens stand in front of one that binds looser than `least`, the reader reads `e`
from them. `rank` says how many nonterminals it enters before it takes a token. -/
def Reader (i : Input) (d : Nat) (kinds : List TokenKind) (e : Expr) (least rank : Nat)
    (p : Grammar → Parser Expr) : Prop :=
  ∀ ⦃s : State⦄ ⦃m n fuel : Nat⦄, s.Ready d → i.Shows m kinds n → pull (i.kindAt n) < least →
    Enough i fuel m rank → ∃ e', Reads i s m (p (grammar fuel)) e' n ∧ e'.Alike e

/-- The reader reads what a loop goes on to from `e`, once the loop has read `e` from the tokens. -/
def Carries (i : Input) (d : Nat) (kinds : List TokenKind) (e : Expr) (least rank : Nat)
    (body : Grammar → Expr → Parser (Round Expr Expr)) (p : Grammar → Parser Expr) : Prop :=
  ∀ ⦃s : State⦄ ⦃m n fuel : Nat⦄, s.Ready d → i.Shows m kinds n → pull (i.kindAt n) < least →
    Enough i fuel m rank → ∃ e', e'.Alike e ∧ ∀ {r k},
      Loops i s (body (grammar fuel)) e' n r k → Reads i s m (p (grammar fuel)) r k

variable {e : Expr} {least : Nat}

/-! ### Calls and members -/

theorem Reader.carries {f : TokenKind → Bool} (opens : Opens f kinds)
    (noNew : f (.keyword .new) = false)
    (h : Reader i d kinds e least 0 Grammar.primary) :
    Carries i d kinds e least 0 Grammar.callRound Grammar.callOrMember := by
  intro s m n fuel ready shows loose enough
  obtain ⟨e', first, alike⟩ := h ready shows loose enough
  refine ⟨e', alike, fun more => ?_⟩
  have notNew : (i.kindAt m).isKeyword .new = false := by
    have start := opens.at shows
    cases here : i.kindAt m <;> first | rfl | skip
    rename_i k
    cases k <;> first | rfl | simp_all
  rw [Grammar.callOrMember_eq]
  exact .bind (.checkKeyword _) (.ite_false (by simp [notNew]) (.bind first more.loop))

theorem callRound_done {g : Grammar} (loose : pull (i.kindAt n) < Printer.callLevel) :
    Reads i s n (g.callRound e) (.done e) n := by
  have inside := i.lt_size (ne_eof_of_pull (Nat.lt_trans loose (by decide)))
  refine .bind .peek ?_
  rw [kind_tokenAt inside]
  generalize i.kindAt n = kind at loose
  split <;> first
    | exact .pure _
    | exact absurd loose (show ¬ Printer.callLevel < Printer.callLevel by decide)
    | exact absurd loose (show ¬ Printer.primaryLevel < Printer.callLevel by decide)

/-- A call or a member without an operator behind it. -/
theorem Carries.postfixed
    (h : Carries i d kinds e Printer.postfixLevel 0 Grammar.callRound Grammar.callOrMember) :
    Reader i d kinds e Printer.postfixLevel 0 Grammar.postfixed := by
  intro s m n fuel ready shows loose enough
  obtain ⟨e', alike, goes⟩ := h ready shows loose enough
  have inside := i.lt_size (ne_eof_of_pull (Nat.lt_trans loose (by decide)))
  refine ⟨e', .bind (goes (.done inside (callRound_done (Nat.lt_trans loose (by decide)))))
    (.bind .peek ?_), alike⟩
  rw [kind_tokenAt inside, updateOp?_of_pull loose]
  exact .pure _

/-! ### Operators -/

theorem Reader.unary (opens : Opens opensOperand kinds)
    (h : Reader i d kinds e Printer.postfixLevel 0 Grammar.postfixed) :
    Reader i d kinds e Printer.unaryLevel 1 Grammar.unary := by
  intro s m n fuel ready shows loose enough
  obtain _ | fuel := fuel
  · exact absurd enough (Nat.not_lt_zero _)
  obtain ⟨e', read, alike⟩ := h ready shows (Nat.lt_succ_of_lt loose) enough.pred
  refine ⟨e', ?_, alike⟩
  have start := opens.at shows
  have noUnary : unaryOp? (i.kindAt m) = none := by
    unfold unaryOp?
    split <;> simp_all [opensOperand, opensPrimary, TokenKind.isKeyword]
  have noUpdate : updateOp? (i.kindAt m) = none := by
    unfold updateOp?
    split <;> simp_all [opensOperand, opensPrimary, TokenKind.isKeyword]
  have noDelete : (i.kindAt m).isKeyword .delete = false := by
    cases here : i.kindAt m <;> simp_all [opensOperand, opensPrimary, TokenKind.isKeyword]
    rename_i k
    cases k <;> simp_all
  have noAwait : (i.kindAt m).isWord "await" = false := by
    cases here : i.kindAt m <;>
      simp_all [opensOperand, opensPrimary, TokenKind.isKeyword, TokenKind.isWord]
  show Reads i s m (grammar fuel).unaryBody e' n
  refine .bind .here (.bind .peekKind ?_)
  rw [noUnary, noUpdate]
  refine .ite_false (by simp [noDelete]) (.bind (a := false) ?_ (.ite_false (by simp) read))
  refine .bind (.ahead 1) (.bind (.checkWord _) (.bind (.newlineAhead 1) ?_))
  rw [noAwait]
  exact .pure _

theorem binaryRound_done {g : Grammar} (loose : pull (i.kindAt n) < levelOf least) :
    Reads i s n (g.binaryRound least e) (.done e) n := by
  have tight := Nat.lt_of_lt_of_le loose (levelOf_le least)
  have inside := i.lt_size (ne_eof_of_pull (Nat.lt_trans tight (by decide)))
  refine .bind .peek ?_
  rw [kind_tokenAt inside]
  refine .ite_false ?_ (.ite_false ?_ ?_)
  · simp [isWord_of_pull (Nat.lt_trans tight (by decide))]
  · simp [isKeyword_of_pull (k := .instanceof) tight (by decide)]
  · split
    · exact .pure _
    · rename_i prec op found
      refine .bind (a := s.noIn) rfl (.ite_true ?_ (.pure _))
      simp [lt_of_infixOp? found loose]

/-- How tightly the token behind an operand of this level may bind: only `**` groups to the right. -/
def tail (level : Nat) : Nat := if level = 14 then 14 else min (level + 1) Printer.unaryLevel

theorem levelOf_le_tail {level : Nat} (le : levelOf least ≤ level) : levelOf least ≤ tail level := by
  have := levelOf_le least
  unfold tail
  split <;> omega

/-- An expression of this level is read by the loops of all operators that bind no tighter. -/
def Operand (i : Input) (d : Nat) (kinds : List TokenKind) (level : Nat) (e : Expr) : Prop :=
  ∀ least, levelOf least ≤ level →
    Carries i d kinds e (tail level) 1 (·.binaryRound least) (·.binaryBody least)

theorem Reader.operand {level : Nat} (le : Printer.unaryLevel ≤ level)
    (h : Reader i d kinds e Printer.unaryLevel 1 Grammar.unary) : Operand i d kinds level e := by
  intro least _ s m n fuel ready shows loose enough
  have close : tail level = Printer.unaryLevel := by
    rw [tail, if_neg (by simp only [Printer.unaryLevel] at le; omega)]
    omega
  obtain ⟨e', first, alike⟩ := h ready shows (close ▸ loose) enough
  refine ⟨e', alike, fun {r k} more => ?_⟩
  show Reads i s m ((grammar fuel).binaryBody least) r k
  rw [Grammar.binaryBody_eq]
  exact .bind first more.loop

theorem Operand.binary {level : Nat} (h : Operand i d kinds level e)
    (le : levelOf least ≤ level) : Reader i d kinds e (levelOf least) 2 (·.binary least) := by
  intro s m n fuel ready shows loose enough
  obtain _ | fuel := fuel
  · exact absurd enough (Nat.not_lt_zero _)
  obtain ⟨e', alike, goes⟩ := h least le ready shows
    (Nat.lt_of_lt_of_le loose (levelOf_le_tail le)) enough.pred
  have tight := Nat.lt_of_lt_of_le loose (levelOf_le least)
  have inside := i.lt_size (ne_eof_of_pull (Nat.lt_trans tight (by decide)))
  exact ⟨e', goes (.done inside (binaryRound_done loose)), alike⟩

theorem Operand.conditional {level : Nat} (h : Operand i d kinds level e)
    (le : Printer.nullishLevel ≤ level) :
    Reader i d kinds e Printer.conditionalLevel 2 Grammar.conditional := by
  intro s m n fuel ready shows loose enough
  obtain ⟨e', test, alike⟩ := h.binary (show levelOf 0 ≤ level from le) ready shows
    (Nat.lt_trans loose (by decide)) enough
  refine ⟨e', .bind test (.bind (.eat_none (isPunct_of_pull loose (Nat.le_refl _))) ?_), alike⟩
  exact .ite_true rfl (.pure _)

theorem Reader.plainAssignment {least : Nat} (le : Printer.assignLevel ≤ least)
    (h : Reader i d kinds e least 2 Grammar.conditional) :
    Reader i d kinds e Printer.assignLevel 2 Grammar.plainAssignment := by
  intro s m n fuel ready shows loose enough
  obtain ⟨e', read, alike⟩ := h ready shows (Nat.lt_of_lt_of_le loose le) enough
  refine ⟨e', .bind read (.bind .peekKind ?_), alike⟩
  rw [assignOp?_of_pull loose]
  exact .pure _

/-! ### Groups that are no parameters -/

/-- A reader that does not succeed, wherever it starts. -/
def Unsuccessful {α : Type} (i : Input) (p : Parser α) : Prop := ∀ s a t, p i s ≠ .parsed a t

namespace Unsuccessful

variable {α β : Type} {p : Parser α} {f : α → Parser β}

theorem first (h : Unsuccessful i p) : Unsuccessful i (p >>= f) := by
  intro s b t
  simp only [Bind.bind]
  split
  · rename_i a u read
    exact absurd read (h s a u)
  · simp
  · simp

theorem behind (h : ∀ a, Unsuccessful i (f a)) : Unsuccessful i (p >>= f) := by
  intro s b t
  simp only [Bind.bind]
  split
  · exact h _ _ _ _
  · simp
  · simp

theorem fail : Unsuccessful i (fail : Parser α) := by
  intro s a t
  simp [Parser.fail]

theorem expect {p : Punct} (never : ∀ m, i.kindAt m ≠ .punct p) : Unsuccessful i (expect p) := by
  intro s a t
  have other : (i.kindAt s.pos).isPunct p = false := TokenKind.isPunct_of_ne (never _)
  simp only [Parser.expect, expectKind, Bind.bind, peekKind, look]
  rw [if_neg (by simp [other])]
  exact behind (fun _ => fail) s a t

theorem arrow {g : Grammar} (noArrow : ∀ m, i.kindAt m ≠ .punct .arrow) :
    Unsuccessful i g.arrow :=
  behind fun _ => behind fun (_, _) => behind fun _ => first (expect noArrow)

end Unsuccessful

/-- A group that is tried as parameters fails, and going back restores the state. -/
theorem arrow_fails (plain : i.Plain) (free : s.noIn = false) (found : s.found = .empty)
    (inside : s.pos < i.tokens.size) (enough : Enough i fuel (s.pos + 1) 4) :
    ∃ t, (grammar fuel).arrow i s = .failed t ∧
      { t with pos := s.pos, found := t.found.truncate s.found.total } = s := by
  have goes := ((grammar_fueled plain.closed fuel (s.pos + 1)).proceeds plain.closed enough).arrow
    (P := Any) (Q := All) s (Nat.le_refl _) inside trivial
  have keeps := (grammar_keepsLow (c := True)
    (fun _ n => TokenKind.isPunct_of_ne (plain.noBrace n)) fuel).arrow s rfl
  cases read : (grammar fuel).arrow i s with
  | parsed fn t => exact absurd read (Unsuccessful.arrow plain.noArrow s fn t)
  | exhausted t =>
    rw [read] at goes
    exact goes.elim
  | failed t =>
    rw [read] at keeps
    refine ⟨t, rfl, ?_⟩
    have counted : Counted t.found := keeps.counted (by rw [found]; exact Nat.le_refl 0)
    have forgotten : t.found.truncate s.found.total = s.found := by
      rw [found]
      unfold Diagnostics.truncate
      split
      · rfl
      · rename_i none
        have total : t.found.total = 0 := Nat.eq_zero_of_not_pos none
        have errors : t.found.errors = [] :=
          List.length_eq_zero_iff.mp (by unfold Counted at counted; omega)
        cases eq : t.found
        simp_all [Diagnostics.empty]
    rw [forgotten, keeps.depth, keeps.noIn free, keeps.defaultExport trivial, ← free]

/-- No formula starts like an arrow function, but it may start with a group in front of a colon. -/
theorem arrowShape_formula (plain : i.Plain) (opens : opensFormula (i.kindAt m) = true) :
    ∃ shape, Reads i s m arrowShape shape m ∧ (shape = .none ∨ shape = .ambiguous) := by
  cases here : i.kindAt m with
  | identifier name =>
    have noAsync : (name != "async") = true := by
      rw [here] at opens
      simp_all [opensFormula, opensOperand, opensPrimary, TokenKind.isKeyword, unaryOp?, updateOp?]
    refine ⟨.none, .bind .peekKind ?_, .inl rfl⟩
    rw [here]
    refine .bind (.ahead 1) (.bind (.newlineAhead 1) (.ite_true (by simp [noAsync]) ?_))
    refine .bind (.pure false) (.ite_false (by simp) (.ite_false ?_ (.pure _)))
    simp [TokenKind.isPunct_of_ne (plain.noArrow (m + 1))]
  | punct p =>
    by_cases group : p = .lParen
    · subst group
      by_cases colon : (i.matchingClose (m + 0)).map i.kindAt = some (.punct .colon)
      · refine ⟨.ambiguous, .bind .peekKind ?_, .inr rfl⟩
        rw [here]
        refine .bind (a := some (.punct .colon)) (by rw [← colon]; rfl) (.pure _)
      · refine ⟨.none, .bind .peekKind ?_, .inl rfl⟩
        rw [here]
        refine .bind (a := (i.matchingClose (m + 0)).map i.kindAt) rfl ?_
        split
        · rename_i behind
          obtain ⟨n, -, arrow⟩ := Option.map_eq_some_iff.mp behind
          exact absurd arrow (plain.noArrow n)
        · rename_i behind
          exact absurd behind colon
        · exact .pure _
    · refine ⟨.none, .bind .peekKind ?_, .inl rfl⟩
      rw [here]
      split
      · rename_i same
        cases same
      · rename_i same
        cases same
        exact absurd rfl group
      · exact .pure _
  | _ =>
    refine ⟨.none, .bind .peekKind ?_, .inl rfl⟩
    rw [here]
    exact .pure _

/-- One construct more is open within an assignment. -/
theorem Reader.assignment (plain : i.Plain) (opens : Opens opensFormula kinds)
    (h : Reader i d kinds e Printer.assignLevel 2 Grammar.plainAssignment) :
    Reader i (d + 1) kinds e Printer.assignLevel 3 Grammar.assignment := by
  intro s m n fuel ready shows loose enough
  obtain _ | fuel := fuel
  · exact absurd enough (Nat.not_lt_zero _)
  have inside : m < i.tokens.size := i.lt_size fun eof => by
    have := opens.at shows
    rw [eof] at this
    cases this
  have room := ready.room
  have deeper : State.Ready d { s with depth := s.depth + 1 } :=
    ⟨ready.noIn, ready.found, show s.depth + 1 + d ≤ nestingLimit by omega⟩
  obtain ⟨e', read, alike⟩ := h deeper shows loose enough.pred
  obtain ⟨shape, looked, rfl | rfl⟩ := arrowShape_formula
    (s := { s with depth := s.depth + 1 }) plain (opens.at shows)
  · exact ⟨e', .nested (by omega) (.bind looked read), alike⟩
  · refine ⟨e', .nested (by omega) (.bind looked ?_), alike⟩
    obtain ⟨t, failed, back⟩ := arrow_fails (s := { s with pos := m, depth := s.depth + 1 }) plain
      ready.noIn ready.found inside
      ((enough.behind inside (Nat.lt_succ_self m)).of_le (by decide))
    refine .bind .checkpoint ?_
    change (Bind.bind (attempt (grammar fuel).arrow) _ : Parser Expr) i _ = _
    simp only [Bind.bind, attempt]
    rw [failed]
    simp only [rewind, update]
    rw [back]
    exact read

theorem Reader.expression (h : Reader i d kinds e Printer.assignLevel 3 Grammar.assignment) :
    Reader i d kinds e Printer.sequenceLevel 3 Grammar.expression := by
  intro s m n fuel ready shows loose enough
  obtain ⟨e', read, alike⟩ := h ready shows (Nat.lt_succ_of_lt loose) enough
  refine ⟨e', .bind read (.bind (.check _) (.ite_true ?_ (.pure _))), alike⟩
  simp [isPunct_of_pull (p := .comma) loose (by decide)]

end TsxPreview.Parser
