import TsxPreview.Proofs.Syntax.Formulas.Levels

/-!
The tokens of a formula are parsed as that formula: one lemma for each way to make a formula, each
saying on which level of the grammar its tokens are read, and then all levels below.
-/

namespace TsxPreview.Parser

variable {i : Input} {d d' level least rank : Nat} {kinds : List TokenKind} {e : Expr}

/-! ## All levels at once -/

theorem State.Ready.mono {s : State} (h : s.Ready d') (le : d ≤ d') : s.Ready d :=
  ⟨h.noIn, h.found, Nat.le_trans (Nat.add_le_add_left le _) h.room⟩

theorem Reader.mono {p : Grammar → Parser Expr} {least' : Nat} (h : Reader i d kinds e least rank p)
    (deep : d ≤ d') (le : least' ≤ least) : Reader i d' kinds e least' rank p :=
  fun _ _ _ _ ready shows loose => h (ready.mono deep) shows (Nat.lt_of_lt_of_le loose le)

theorem Carries.mono {body : Grammar → Expr → Parser (Round Expr Expr)} {p : Grammar → Parser Expr}
    {least' : Nat} (h : Carries i d kinds e least rank body p) (deep : d ≤ d')
    (le : least' ≤ least) : Carries i d' kinds e least' rank body p :=
  fun _ _ _ _ ready shows loose => h (ready.mono deep) shows (Nat.lt_of_lt_of_le loose le)

/-- No token binds as tightly as this. -/
def anything : Nat := Printer.primaryLevel + 1

theorem pull_lt_anything (kind : TokenKind) : pull kind < anything := by
  unfold pull
  split <;> (try split) <;> decide

/-- Where the tokens stand, `e` is read from them on every level of the grammar that binds no tighter
than `level`, if `d` more constructs may be opened. -/
structure Readable (i : Input) (d : Nat) (kinds : List TokenKind) (level : Nat) (e : Expr) :
    Prop where
  opens : Opens opensFormula kinds
  primary : Printer.primaryLevel ≤ level →
    Opens opensPrimary kinds ∧ Reader i d kinds e anything 0 Grammar.primary
  chain : Printer.callLevel ≤ level →
    Opens opensOperand kinds ∧
      Carries i d kinds e anything 0 Grammar.callRound Grammar.callOrMember
  unary : Printer.unaryLevel ≤ level → Reader i d kinds e Printer.unaryLevel 1 Grammar.unary
  operand : Printer.nullishLevel ≤ level → Operand i d kinds level e
  assignment : Printer.assignLevel ≤ level →
    Reader i (d + 1) kinds e Printer.assignLevel 3 Grammar.assignment
  expression : Reader i (d + 1) kinds e Printer.sequenceLevel 3 Grammar.expression

namespace Readable

theorem mono (h : Readable i d kinds level e) (le : d ≤ d') : Readable i d' kinds level e where
  opens := h.opens
  primary tight := ⟨(h.primary tight).1, (h.primary tight).2.mono le (Nat.le_refl _)⟩
  chain tight := ⟨(h.chain tight).1, (h.chain tight).2.mono le (Nat.le_refl _)⟩
  unary tight := (h.unary tight).mono le (Nat.le_refl _)
  operand tight least below := (h.operand tight least below).mono le (Nat.le_refl _)
  assignment tight := (h.assignment tight).mono (Nat.succ_le_succ le) (Nat.le_refl _)
  expression := h.expression.mono (Nat.succ_le_succ le) (Nat.le_refl _)

/-! ### From the loosest level that reads it -/

theorem opensFormula_of_opensOperand (kind : TokenKind) (h : opensOperand kind = true) :
    opensFormula kind = true := by
  simp [opensFormula, h]

theorem opensOperand_of_opensPrimary (kind : TokenKind) (h : opensPrimary kind = true) :
    opensOperand kind = true := by
  simp [opensOperand, h]

theorem of_expression (opens : Opens opensFormula kinds)
    (h : Reader i (d + 1) kinds e Printer.sequenceLevel 3 Grammar.expression) :
    Readable i d kinds Printer.sequenceLevel e where
  opens := opens
  primary tight := absurd tight (by decide)
  chain tight := absurd tight (by decide)
  unary tight := absurd tight (by decide)
  operand tight := absurd tight (by decide)
  assignment tight := absurd tight (by decide)
  expression := h

variable (plain : i.Plain)

include plain

theorem of_plainAssignment (opens : Opens opensFormula kinds)
    (h : Reader i d kinds e Printer.assignLevel 2 Grammar.plainAssignment) :
    Readable i d kinds Printer.assignLevel e where
  opens := opens
  primary tight := absurd tight (by decide)
  chain tight := absurd tight (by decide)
  unary tight := absurd tight (by decide)
  operand tight := absurd tight (by decide)
  assignment _ := h.assignment plain opens
  expression := (h.assignment plain opens).expression

theorem of_conditional (opens : Opens opensFormula kinds)
    (h : Reader i d kinds e Printer.assignLevel 2 Grammar.conditional) :
    Readable i d kinds Printer.conditionalLevel e where
  opens := opens
  primary tight := absurd tight (by decide)
  chain tight := absurd tight (by decide)
  unary tight := absurd tight (by decide)
  operand tight := absurd tight (by decide)
  assignment _ := (h.plainAssignment (Nat.le_refl _)).assignment plain opens
  expression := ((h.plainAssignment (Nat.le_refl _)).assignment plain opens).expression

theorem of_operand (opens : Opens opensFormula kinds) (le : Printer.nullishLevel ≤ level)
    (h : Operand i d kinds level e)
    (unary : Printer.unaryLevel ≤ level → Reader i d kinds e Printer.unaryLevel 1 Grammar.unary)
    (chain : Printer.callLevel ≤ level → Opens opensOperand kinds ∧
      Carries i d kinds e anything 0 Grammar.callRound Grammar.callOrMember)
    (primary : Printer.primaryLevel ≤ level →
      Opens opensPrimary kinds ∧ Reader i d kinds e anything 0 Grammar.primary) :
    Readable i d kinds level e :=
  have assignment := ((h.conditional le).plainAssignment (by decide)).assignment plain opens
  { opens, primary, chain, unary
    operand := fun _ => h
    assignment := fun _ => assignment
    expression := assignment.expression }

/-- Operators between operands. -/
theorem of_binary (opens : Opens opensFormula kinds) (le : Printer.nullishLevel ≤ level)
    (lt : level < Printer.unaryLevel) (h : Operand i d kinds level e) :
    Readable i d kinds level e :=
  of_operand plain opens le h (fun tight => absurd tight (Nat.not_le_of_lt lt))
    (fun tight => absurd (Nat.le_trans (by decide) tight) (Nat.not_le_of_lt lt))
    fun tight => absurd (Nat.le_trans (by decide) tight) (Nat.not_le_of_lt lt)

/-- Prefix and postfix operators. -/
theorem of_unary (opens : Opens opensFormula kinds) (le : Printer.unaryLevel ≤ level)
    (lt : level < Printer.callLevel)
    (h : Reader i d kinds e Printer.unaryLevel 1 Grammar.unary) : Readable i d kinds level e :=
  of_operand plain opens (Nat.le_trans (by decide) le) (h.operand le) (fun _ => h)
    (fun tight => absurd tight (Nat.not_le_of_lt lt))
    fun tight => absurd (Nat.le_trans (by decide) tight) (Nat.not_le_of_lt lt)

theorem of_chain (opens : Opens opensOperand kinds)
    (h : Carries i d kinds e anything 0 Grammar.callRound Grammar.callOrMember) :
    Readable i d kinds Printer.callLevel e :=
  have unary := (h.mono (Nat.le_refl _) (by decide)).postfixed.unary opens
  of_operand plain (opens.imp opensFormula_of_opensOperand) (by decide) (unary.operand (by decide))
    (fun _ => unary) (fun _ => ⟨opens, h⟩) fun tight => absurd tight (by decide)

theorem of_primary (opens : Opens opensPrimary kinds)
    (h : Reader i d kinds e anything 0 Grammar.primary) :
    Readable i d kinds Printer.primaryLevel e :=
  have opens' := opens.imp opensOperand_of_opensPrimary
  have chain := h.carries opens rfl
  have unary := (chain.mono (Nat.le_refl _) (by decide)).postfixed.unary opens'
  of_operand plain (opens'.imp opensFormula_of_opensOperand) (by decide)
    (unary.operand (by decide)) (fun _ => unary) (fun _ => ⟨opens', chain⟩) fun _ => ⟨opens, h⟩

end Readable

/-! ## Groups -/

/-- A group is read on all levels. -/
theorem Reader.grouped (plain : i.Plain)
    (h : Reader i d kinds e Printer.sequenceLevel 3 Grammar.expression) :
    Reader i d (grouped true kinds) e anything 0 Grammar.primary := by
  intro s m n fuel ready shows _ enough
  obtain ⟨openHere, others⟩ := shows
  obtain ⟨p, inner, closeHere, rfl⟩ := Input.shows_append.mp others
  have inside : m < i.tokens.size := i.lt_size (by simp [openHere])
  obtain ⟨e', read, alike⟩ := h ready inner (by rw [closeHere]; decide)
    ((enough.succ.behind inside (Nat.lt_succ_self m)).of_le (by decide))
  refine ⟨e', .bind .here (.bind .peekKind ?_), alike⟩
  rw [openHere]
  exact .bind (.advance (plain.closed m (by simp [openHere]))) (.bind (.allowIn ready.noIn read)
    (.bind (.expect (by rw [closeHere]; rfl) (plain.closed p (by simp [closeHere]))) (.pure _)))

/-- What an operand becomes in its place. -/
theorem Readable.place (plain : i.Plain) (h : Readable i d kinds level e) (b : Bool) :
    Readable i (d + 1) (grouped b kinds) (if b then Printer.primaryLevel else level) e := by
  cases b with
  | true => exact .of_primary plain ⟨_, _, rfl, rfl⟩ (h.expression.grouped plain)
  | false => exact h.mono (Nat.le_succ d)

/-! ## Names and literals -/

/-- A primary expression of one token. -/
theorem Readable.leaf (plain : i.Plain) {kind : TokenKind} (opens : opensPrimary kind = true)
    (read : ∀ {s : State} {m : Nat} {g : Grammar}, i.kindAt m = kind → m + 1 < i.tokens.size →
      ∃ e', Reads i s m g.primary e' (m + 1) ∧ e'.Alike e) :
    Readable i d [kind] Printer.primaryLevel e := by
  refine .of_primary plain ⟨kind, [], rfl, opens⟩ fun s m n fuel _ shows _ _ => ?_
  obtain ⟨here, rfl⟩ := shows
  refine read here (plain.closed m ?_)
  rintro eof
  rw [← here, eof] at opens
  cases opens

section

variable (plain : i.Plain) {span : Span}

include plain

theorem Readable.ident {name : String} (h : isPlainName name = true) :
    Readable i d [Lexer.wordKind name] Printer.primaryLevel (.ident span name) := by
  simp only [isPlainName, Bool.and_eq_true, Bool.not_eq_true', List.contains_eq_mem,
    decide_eq_false_iff_not, List.mem_cons, List.not_mem_nil, or_false, not_or,
    Option.isNone_iff_eq_none] at h
  obtain ⟨⟨-, noKeyword⟩, noAwait, noAsync, -, -⟩ := h
  have kind : Lexer.wordKind name = .identifier name := by
    rw [Lexer.wordKind, noKeyword]
  rw [kind]
  refine .leaf plain (by simp [opensPrimary, noAwait, noAsync]) fun {s m g} here inside => ?_
  refine ⟨.ident (i.tokenAt m).span name, .bind .here (.bind .peekKind ?_), rfl⟩
  rw [here]
  exact .bind (.advance inside) (.pure _)

theorem Readable.string {value : String} :
    Readable i d [.string value] Printer.primaryLevel (.string span value) := by
  refine .leaf plain rfl fun {s m g} here inside => ?_
  refine ⟨.string (i.tokenAt m).span value, .bind .here (.bind .peekKind ?_), rfl⟩
  rw [here]
  exact .bind (.advance inside) (.pure _)

theorem Readable.bool {value : Bool} :
    Readable i d [.keyword (if value then .true else .false)] Printer.primaryLevel
      (.bool span value) := by
  refine .leaf plain (by cases value <;> rfl) fun {s m g} here inside => ?_
  refine ⟨.bool (i.tokenAt m).span value, .bind .here (.bind .peekKind ?_), rfl⟩
  rw [here]
  cases value <;> exact .bind (.advance inside) (.pure _)

theorem Readable.null : Readable i d [.keyword .null] Printer.primaryLevel (.null span) := by
  refine .leaf plain rfl fun {s m g} here inside => ?_
  refine ⟨.null (i.tokenAt m).span, .bind .here (.bind .peekKind ?_), rfl⟩
  rw [here]
  exact .bind (.advance inside) (.pure _)

end

/-! ## Operators -/

theorem unaryOp?_kind (op : UnaryOp) : unaryOp? op.kind = some op := by cases op <;> rfl

theorem updateOp?_kind (op : UpdateOp) : updateOp? op.kind = some op := by cases op <;> rfl

theorem unaryOp?_updateKind (op : UpdateOp) : unaryOp? op.kind = none := by cases op <;> rfl

section

variable (plain : i.Plain) {span : Span}

include plain

theorem Readable.unary_node {op : UnaryOp} (h : Readable i d kinds level e)
    (tight : Printer.unaryLevel ≤ level) :
    Readable i (d + 1) (op.kind :: kinds) Printer.unaryLevel (.unary span op e) := by
  refine .of_unary plain ⟨_, _, rfl, by cases op <;> rfl⟩ (Nat.le_refl _) (by decide) ?_
  intro s m n fuel ready shows loose enough
  obtain _ | fuel := fuel
  · exact absurd enough (Nat.not_lt_zero _)
  obtain ⟨here, shows⟩ := shows
  have live : i.kindAt m ≠ .eof := by
    rw [here]
    cases op <;> simp [UnaryOp.kind]
  have room := ready.room
  have deeper : State.Ready d { s with depth := s.depth + 1 } :=
    ⟨ready.noIn, ready.found, show s.depth + 1 + d ≤ nestingLimit by omega⟩
  obtain ⟨e', read, alike⟩ := h.unary tight deeper shows loose
    ((enough.behind (i.lt_size live) (Nat.lt_succ_self m)).of_le (by decide))
  refine ⟨.unary ((i.tokenAt m).span.merge e'.span) op e', ?_, ?_⟩
  · show Reads i s m (grammar fuel).unaryBody _ n
    refine .bind .here (.bind .peekKind ?_)
    rw [here, unaryOp?_kind]
    exact .bind (.advance (plain.closed m live)) (.bind (.nested (by omega) read) (.pure _))
  · simp only [Expr.Alike, Expr.withoutSpans, show e'.withoutSpans = _ from alike]

theorem Readable.update_before {op : UpdateOp} (h : Readable i d kinds level e)
    (tight : Printer.unaryLevel ≤ level) (valid : e.isTarget = true) :
    Readable i d (op.kind :: kinds) Printer.unaryLevel (.update span op true e) := by
  refine .of_unary plain ⟨_, _, rfl, by cases op <;> rfl⟩ (Nat.le_refl _) (by decide) ?_
  intro s m n fuel ready shows loose enough
  obtain _ | fuel := fuel
  · exact absurd enough (Nat.not_lt_zero _)
  obtain ⟨here, shows⟩ := shows
  have live : i.kindAt m ≠ .eof := by
    rw [here]
    cases op <;> simp [UpdateOp.kind]
  obtain ⟨e', read, alike⟩ := h.unary tight ready shows loose
    ((enough.behind (i.lt_size live) (Nat.lt_succ_self m)).of_le (by decide))
  refine ⟨.update (i.spanTo (i.tokenAt m).span n) op true e', ?_, ?_⟩
  · show Reads i s m (grammar fuel).unaryBody _ n
    refine .bind .here (.bind .peekKind ?_)
    rw [here, unaryOp?_updateKind, updateOp?_kind]
    exact .bind (.advance (plain.closed m live)) (.bind read
      (.ite_true (alike.isTarget.trans valid) (.bind (.spanFrom _) (.pure _))))
  · simp only [Expr.Alike, Expr.withoutSpans, show e'.withoutSpans = _ from alike]

theorem Readable.update_after {op : UpdateOp} (h : Readable i d kinds level e)
    (tight : Printer.callLevel ≤ level) (valid : e.isTarget = true) :
    Readable i d (kinds ++ [op.kind]) Printer.postfixLevel (.update span op false e) := by
  obtain ⟨opens, chain⟩ := h.chain tight
  refine .of_unary plain (opens.imp opensFormula_of_opensOperand).append (by decide) (by decide)
    (Reader.unary opens.append fun s m n fuel ready shows loose enough => ?_)
  obtain ⟨p, first, here, rfl⟩ := Input.shows_append.mp shows
  have live : i.kindAt p ≠ .eof := by
    rw [here]
    cases op <;> simp [UpdateOp.kind]
  obtain ⟨e', alike, goes⟩ := chain ready first (pull_lt_anything _) enough
  have stops : pull (i.kindAt p) < Printer.callLevel := by
    rw [here]
    cases op <;> decide
  refine ⟨.update (i.spanTo e'.span (p + 1)) op false e', ?_, ?_⟩
  · refine .bind (goes (.done (i.lt_size live) (callRound_done stops))) (.bind .peek ?_)
    rw [kind_tokenAt (i.lt_size live), here, updateOp?_kind]
    exact .ite_false (by simp [plain.sameLine p live]) (.bind (.advance (plain.closed p live))
      (.ite_true (alike.isTarget.trans valid) (.bind (.spanFrom _) (.pure _))))
  · simp only [Expr.Alike, Expr.withoutSpans, show e'.withoutSpans = _ from alike]

omit plain in
theorem level_bounds (op : InfixOp) :
    Printer.nullishLevel ≤ op.level ∧ op.level < Printer.unaryLevel := by
  obtain op | op := op <;> cases op <;> decide

omit plain in
/-- The operator behind an operand leaves the operand as it is. -/
theorem level_lt_tail {op : InfixOp} (le : op.level ≤ level)
    (power : op = .binary .exp → op.level < level) : op.level < tail level := by
  have bound := (level_bounds op).2
  have other : op ≠ .binary .exp → op.level ≠ 14 := by
    obtain op | op := op <;> cases op <;> first
      | exact fun no => absurd rfl no
      | exact fun _ => by decide
  unfold tail
  split
  · by_cases h : op = .binary .exp
    · have := power h
      omega
    · have := other h
      omega
  · simp only [Printer.unaryLevel] at *
    omega

omit plain in
/-- A token that does not go on with an operation does not go on with its right operand. -/
theorem pull_lt_rightLevel {op : InfixOp} {prec : Nat} {kind : TokenKind}
    (found : infixOp? op.kind = some (prec, op)) (loose : pull kind < tail op.level) :
    pull kind < levelOf (op.rightLevel prec) := by
  obtain op | op := op <;> cases op <;> cases found <;>
    exact Nat.lt_of_lt_of_le loose (by decide)

theorem Readable.node {op : InfixOp} {left right : Expr} {kinds' : List TokenKind} {level' : Nat}
    (notLess : op ≠ .binary .less) (hl : Readable i d kinds level left)
    (hr : Readable i d kinds' level' right) (le : op.level ≤ level)
    (power : op = .binary .exp → op.level < level)
    (tight : ∀ {prec}, infixOp? op.kind = some (prec, op) → levelOf (op.rightLevel prec) ≤ level') :
    Readable i d (kinds ++ op.kind :: kinds') op.level (op.node span left right) := by
  obtain ⟨prec, found, levelOf_prec, some, few⟩ := infixOp?_kind op
  have bounds := level_bounds op
  refine .of_binary plain hl.opens.append bounds.1 bounds.2
    fun least below s m n fuel ready shows loose enough => ?_
  obtain ⟨p, first, here, second⟩ := Input.shows_append.mp shows
  have live : i.kindAt p ≠ .eof := by
    rw [here]
    obtain op | op := op <;> cases op <;> simp [InfixOp.kind, BinaryOp.kind, LogicalOp.kind]
  have inside := i.lt_size live
  have between := first.le
  have behind := second.le
  obtain ⟨l, alikeL, goes⟩ := hl.operand (Nat.le_trans bounds.1 le) least (Nat.le_trans below le)
    ready first (by rw [here, pull_kind notLess]; exact level_lt_tail le power) enough
  obtain ⟨r, read, alikeR⟩ := (hr.operand (Nat.le_trans (levelOf_mono (Nat.zero_le _))
      (tight found))).binary (tight found) ready second (pull_lt_rightLevel found loose)
    ((enough.succ.behind (by omega) (show m < p + 1 by omega)).of_le (by decide))
  refine ⟨op.apply l r, ?_, fun {result stop} more => goes (.again inside ?_ (by omega) more)⟩
  · have leftEq : l.withoutSpans = left.withoutSpans := alikeL
    have rightEq : r.withoutSpans = right.withoutSpans := alikeR
    cases op <;> simp [InfixOp.apply, InfixOp.node, Expr.Alike, Expr.withoutSpans, leftEq, rightEq]
  · have noWord (name : String) : op.kind.isWord name = false := by
      obtain op | op := op <;> cases op <;> rfl
    have noInstance : op.kind.isKeyword .instanceof = false := by
      obtain op | op := op <;> cases op <;> rfl
    have taken : ¬ prec < least := fun lt => by
      have strict : levelOf prec < levelOf (prec + 1) := by
        have table : ∀ prec < 8, 0 < prec → levelOf prec < levelOf (prec + 1) := by decide
        exact table prec few some
      have := levelOf_mono (show prec + 1 ≤ least from lt)
      omega
    refine .bind .peek ?_
    rw [kind_tokenAt inside, here]
    refine .ite_false (by simp [noWord]) (.ite_false (by simp [noInstance]) ?_)
    rw [found]
    refine .bind (a := s.noIn) rfl (.ite_false (by simp [taken, ready.noIn]) ?_)
    exact .bind (.advance (plain.closed p live)) (.bind read (.pure _))

theorem Readable.conditional_node {test yes no : Expr} {kindsY kindsN : List TokenKind}
    {levelY levelN : Nat} (ht : Readable i d kinds level test)
    (hy : Readable i d kindsY levelY yes) (hn : Readable i d kindsN levelN no)
    (tightT : Printer.nullishLevel ≤ level) (tightY : Printer.assignLevel ≤ levelY)
    (tightN : Printer.assignLevel ≤ levelN) :
    Readable i (d + 1) (kinds ++ .punct .question :: (kindsY ++ .punct .colon :: kindsN))
      Printer.conditionalLevel (.conditional span test yes no) := by
  refine .of_conditional plain ht.opens.append fun s m n fuel ready shows loose enough => ?_
  obtain ⟨p, first, question, others⟩ := Input.shows_append.mp shows
  obtain ⟨q, second, colon, third⟩ := Input.shows_append.mp others
  have live : i.kindAt p ≠ .eof := by simp [question]
  have live' : i.kindAt q ≠ .eof := by simp [colon]
  have inside := i.lt_size live
  have inside' := i.lt_size live'
  have between := first.le
  have between' := second.le
  obtain ⟨t, readT, alikeT⟩ := (ht.operand tightT).binary (show levelOf 0 ≤ level from tightT)
    (ready.mono (Nat.le_succ d)) first (by rw [question]; decide) enough
  obtain ⟨y, readY, alikeY⟩ := hy.assignment tightY ready second (by rw [colon]; decide)
    ((enough.succ.behind (by omega) (show m < p + 1 by omega)).of_le (by decide))
  obtain ⟨x, readN, alikeN⟩ := hn.assignment tightN ready third loose
    ((enough.succ.behind (by omega) (show m < q + 1 by omega)).of_le (by decide))
  refine ⟨.conditional (t.span.merge x.span) t y x, ?_, ?_⟩
  · refine .bind readT (.bind (.eat (by rw [question]; rfl) (plain.closed p live)) ?_)
    exact .ite_false (by simp) (.bind (.allowIn ready.noIn readY) (.bind
      (.expect (by rw [colon]; rfl) (plain.closed q live')) (.bind readN (.pure _))))
  · simp only [Expr.Alike, Expr.withoutSpans, show t.withoutSpans = _ from alikeT,
      show y.withoutSpans = _ from alikeY, show x.withoutSpans = _ from alikeN]

theorem Readable.assign_node {op : AssignOp} {target value : Expr} {kinds' : List TokenKind}
    {level' : Nat} (spelled : assignOp? op.kind = some op) (valid : target.isTarget = true)
    (ht : Readable i d kinds level target) (hv : Readable i d kinds' level' value)
    (tight : Printer.nullishLevel ≤ level) (tight' : Printer.assignLevel ≤ level') :
    Readable i (d + 1) (kinds ++ op.kind :: kinds') Printer.assignLevel
      (.assign span op target value) := by
  refine .of_plainAssignment plain ht.opens.append fun s m n fuel ready shows loose enough => ?_
  obtain ⟨p, first, here, second⟩ := Input.shows_append.mp shows
  have live : i.kindAt p ≠ .eof := by
    intro eof
    rw [← here, eof] at spelled
    cases spelled
  have inside := i.lt_size live
  have between := first.le
  have pulls : pull (i.kindAt p) < Printer.conditionalLevel := by
    rw [here]
    revert spelled
    obtain _ | op | op := op
    · decide
    · cases op <;> intro spelled <;> first | cases spelled; done | decide
    · cases op <;> decide
  obtain ⟨t, readT, alikeT⟩ := (ht.operand tight).conditional tight (ready.mono (Nat.le_succ d))
    first pulls enough
  obtain ⟨v, readV, alikeV⟩ := hv.assignment tight' ready second loose
    ((enough.succ.behind (by omega) (show m < p + 1 by omega)).of_le (by decide))
  refine ⟨.assign (t.span.merge v.span) op t v, ?_, ?_⟩
  · refine .bind readT (.bind .peekKind ?_)
    rw [here, spelled]
    exact .ite_false (by simp [alikeT.isTarget.trans valid]) (.bind
      (.advance (plain.closed p live)) (.bind readV (.pure _)))
  · simp only [Expr.Alike, Expr.withoutSpans, show t.withoutSpans = _ from alikeT,
      show v.withoutSpans = _ from alikeV]

end

/-! ## Lists with commas -/

theorem Enough.of_pos_le {fuel m p : Nat} (h : Enough i fuel m rank) (le : m ≤ p) :
    Enough i fuel p rank := by
  unfold Enough at *
  omega

theorem commaKinds_cons_cons (part next : List TokenKind) (parts : List (List TokenKind)) :
    commaKinds (part :: next :: parts) = part ++ .punct .comma :: commaKinds (next :: parts) := by
  simp [commaKinds]

theorem commaKinds_cons (part : List TokenKind) (parts : List (List TokenKind)) :
    commaKinds (part :: parts) = part ++ parts.flatMap (.punct .comma :: ·) := by
  induction parts generalizing part with
  | nil => simp [commaKinds]
  | cons next parts ih =>
    rw [commaKinds_cons_cons, ih]
    simp

namespace Grammar

variable (g : Grammar)

/-- The rounds of `expression` behind a first expression. -/
def sequenceRound (acc : List Expr) : Parser (Round (List Expr) (List Expr)) := do
  if ← eat .comma then return .again ((← g.assignment) :: acc) else return .done acc.reverse

theorem expression_eq : g.expression = (do
    let first ← g.assignment
    if !(← check .comma) then return first
    let exprs ← loop [first] g.sequenceRound
    return .sequence (← spanFrom first.span) exprs) := rfl

/-- The rounds of `arguments`. -/
def argumentRound (acc : List Item) : Parser (Round (List Item) (List Item)) := do
  if (← check .rParen) || (← atEnd) then return .done acc.reverse
  let x ← g.item
  if ← eat .comma then return .again (x :: acc) else return .done (x :: acc).reverse

theorem arguments_eq : g.arguments = (do
    let _ ← expect .lParen
    let args ← allowIn (loop [] g.argumentRound)
    let _ ← expect .rParen
    return args) := rfl

end Grammar

section

variable (plain : i.Plain)

include plain

theorem sequence_loop {s : State} {first fuel n : Nat} {parts : List (List TokenKind)}
    {es : List Expr} (ready : s.Ready d) (enough : Enough i fuel first 3)
    (h : List.Forall₂ (fun part e => Reader i d part e Printer.assignLevel 3 Grammar.assignment)
      parts es) {m : Nat} (le : first ≤ m) (acc : List Expr)
    (shows : i.Shows m (parts.flatMap (.punct .comma :: ·)) n)
    (loose : pull (i.kindAt n) < Printer.sequenceLevel) :
    ∃ es', Loops i s (grammar fuel).sequenceRound acc m (acc.reverse ++ es') n ∧
      List.Forall₂ Expr.Alike es' es := by
  induction h generalizing m acc with
  | nil =>
    obtain rfl : m = n := shows
    have inside := i.lt_size (ne_eof_of_pull (Nat.lt_trans loose (by decide)))
    refine ⟨[], .done inside (.bind (.eat_none (isPunct_of_pull loose (by decide)))
      (.ite_false (by simp) ?_)), .nil⟩
    rw [List.append_nil]
    exact .pure _
  | @cons part e parts es reader _ ih =>
    obtain ⟨comma, others⟩ := shows
    obtain ⟨p, one, rest⟩ := Input.shows_append.mp others
    have live : i.kindAt m ≠ .eof := by simp [comma]
    have between := one.le
    have follows : pull (i.kindAt p) < Printer.assignLevel := by
      cases parts with
      | nil =>
        obtain rfl : p = n := rest
        exact Nat.lt_succ_of_lt loose
      | cons next parts =>
        rw [rest.1]
        decide
    obtain ⟨e', read, alike⟩ := reader ready one follows (enough.of_pos_le (by omega))
    obtain ⟨es', goes, alikes⟩ := ih (m := p) (by omega) (e' :: acc) rest
    rw [List.reverse_cons, List.append_assoc] at goes
    exact ⟨e' :: es', .again (i.lt_size live)
      (.bind (.eat (by rw [comma]; rfl) (plain.closed m live)) (.ite_true rfl
        (.bind read (.pure _)))) (by omega) goes, .cons alike alikes⟩

theorem Readable.sequence_node {span : Span} {part : List TokenKind} {e : Expr} {es : List Expr}
    {parts : List (List TokenKind)} (opens : Opens opensFormula part) (some : es ≠ [])
    (first : Reader i (d + 1) part e Printer.assignLevel 3 Grammar.assignment)
    (others : List.Forall₂
      (fun part e => Reader i (d + 1) part e Printer.assignLevel 3 Grammar.assignment) parts es) :
    Readable i d (commaKinds (part :: parts)) Printer.sequenceLevel (.sequence span (e :: es)) := by
  rw [commaKinds_cons]
  refine .of_expression opens.append fun s m n fuel ready shows loose enough => ?_
  obtain ⟨p, one, rest⟩ := Input.shows_append.mp shows
  have between := one.le
  have comma : i.kindAt p = .punct .comma := by
    cases others with
    | nil => exact absurd rfl some
    | cons => exact rest.1
  obtain ⟨e', read, alike⟩ := first ready one (by rw [comma]; decide) enough
  obtain ⟨es', goes, alikes⟩ := sequence_loop plain ready (enough.of_pos_le (show m ≤ p by omega))
    others (Nat.le_refl _) [e'] rest loose
  refine ⟨.sequence (i.spanTo e'.span n) (e' :: es'), ?_, ?_⟩
  · rw [Grammar.expression_eq]
    refine .bind read (.bind (.check _) (.ite_false (by simp [comma, TokenKind.isPunct]) ?_))
    exact .bind goes.loop (.bind (.spanFrom _) (.pure _))
  · simp only [Expr.Alike, Expr.withoutSpans, Expr.listWithoutSpans,
      show e'.withoutSpans = _ from alike, Expr.listWithoutSpans_eq alikes]

/-- What is read of an argument. -/
structure Argument (i : Input) (d : Nat) (kinds : List TokenKind) (a : Item) : Prop where
  opens : Opens (fun kind => opensFormula kind || kind.isPunct .dotDotDot) kinds
  reads : ∀ ⦃s : State⦄ ⦃m n fuel : Nat⦄, s.Ready d → i.Shows m kinds n →
    pull (i.kindAt n) < Printer.assignLevel → Enough i fuel m 3 →
      ∃ a', Reads i s m (grammar fuel).item a' n ∧ a'.Alike a

omit plain in
theorem Argument.expr {e : Expr} (opens : Opens opensFormula kinds)
    (h : Reader i d kinds e Printer.assignLevel 3 Grammar.assignment) :
    Argument i d kinds (.expr e) where
  opens := opens.imp fun kind h => by simp [h]
  reads s m n fuel ready shows loose enough := by
    obtain ⟨e', read, alike⟩ := h ready shows loose enough
    have noDots : (i.kindAt m).isPunct .dotDotDot = false := by
      have := opens.at shows
      cases here : i.kindAt m <;> first | rfl | skip
      rename_i p
      cases p <;> simp_all [opensFormula, opensOperand, opensPrimary, TokenKind.isPunct,
        TokenKind.isKeyword, unaryOp?, updateOp?]
    exact ⟨.expr e', .bind (.eat_none noDots) (.ite_false (by simp) (.bind read (.pure _))), alike⟩

theorem Argument.spread {e : Expr}
    (h : Reader i d kinds e Printer.assignLevel 3 Grammar.assignment) :
    Argument i d (.punct .dotDotDot :: kinds) (.spread e) where
  opens := ⟨_, _, rfl, rfl⟩
  reads s m n fuel ready shows loose enough := by
    obtain ⟨here, shows⟩ := shows
    obtain ⟨e', read, alike⟩ := h ready shows loose (enough.of_pos_le (Nat.le_succ m))
    have live : i.kindAt m ≠ .eof := by simp [here]
    exact ⟨.spread e', .bind (.eat (by rw [here]; rfl) (plain.closed m live)) (.ite_true rfl
      (.bind read (.pure _))), alike⟩

theorem argument_loop {s : State} {first fuel n : Nat} {parts : List (List TokenKind)}
    {args : List Item} (ready : s.Ready d) (enough : Enough i fuel first 3)
    (h : List.Forall₂ (Argument i d) parts args) {m : Nat} (le : first ≤ m) (acc : List Item)
    (shows : i.Shows m (commaKinds parts) n) (close : i.kindAt n = .punct .rParen) :
    ∃ args', Loops i s (grammar fuel).argumentRound acc m (acc.reverse ++ args') n ∧
      List.Forall₂ Item.Alike args' args := by
  have inside : n < i.tokens.size := i.lt_size (by simp [close])
  induction h generalizing m acc with
  | nil =>
    obtain rfl : m = n := shows
    refine ⟨[], .done inside (.bind (.check _) (.bind .atEnd (.ite_true ?_ ?_))), .nil⟩
    · simp [close, TokenKind.isPunct]
    · rw [List.append_nil]
      exact .pure _
  | @cons part a parts args argument others ih =>
    have start {p : Nat} (one : i.Shows m part p) : m < i.tokens.size ∧
        ((i.kindAt m).isPunct .rParen || (i.kindAt m).isEof) = false := by
      have opens := argument.opens.at one
      refine ⟨i.lt_size fun eof => ?_, ?_⟩
      · rw [eof] at opens
        cases opens
      · cases here : i.kindAt m <;> simp_all [opensFormula, opensOperand, opensPrimary,
          TokenKind.isPunct, TokenKind.isEof, TokenKind.isKeyword, unaryOp?, updateOp?]
        rintro rfl
        simp_all
    cases others with
    | nil =>
      have one : i.Shows m part n := by simpa [commaKinds] using shows
      obtain ⟨live, front⟩ := start one
      obtain ⟨a', read, alike⟩ := argument.reads ready one (by rw [close]; decide)
        (enough.of_pos_le le)
      refine ⟨[a'], .done live (.bind (.check _) (.bind .atEnd (.ite_false (by simp [front])
        (.bind read (.bind (.eat_none (by rw [close]; rfl)) (.ite_false (by simp) ?_)))))),
        .cons alike .nil⟩
      rw [List.reverse_cons]
      exact .pure _
    | @cons next _ parts _ =>
      rw [commaKinds_cons_cons] at shows
      obtain ⟨p, one, comma, rest⟩ := Input.shows_append.mp shows
      obtain ⟨live, front⟩ := start one
      have between := one.le
      have here : i.kindAt p ≠ .eof := by simp [comma]
      obtain ⟨a', read, alike⟩ := argument.reads ready one (by rw [comma]; decide)
        (enough.of_pos_le le)
      obtain ⟨args', goes, alikes⟩ := ih (m := p + 1) (by omega) (a' :: acc) rest
      rw [List.reverse_cons, List.append_assoc] at goes
      refine ⟨a' :: args', .again live (.bind (.check _) (.bind .atEnd (.ite_false (by simp [front])
        (.bind read (.bind (.eat (by rw [comma]; rfl) (plain.closed p here)) (.ite_true rfl
          (.pure _))))))) (by omega) goes, .cons alike alikes⟩

/-- The arguments of a call in their parentheses. -/
theorem arguments_read {s : State} {m n fuel : Nat} {parts : List (List TokenKind)}
    {args : List Item} (ready : s.Ready d) (enough : Enough i fuel (m + 1) 3)
    (h : List.Forall₂ (Argument i d) parts args)
    (shows : i.Shows m (grouped true (commaKinds parts)) n) :
    ∃ args', Reads i s m (grammar fuel).arguments args' n ∧ List.Forall₂ Item.Alike args' args := by
  obtain ⟨openHere, others⟩ := shows
  obtain ⟨p, inner, closeHere, rfl⟩ := Input.shows_append.mp others
  obtain ⟨args', goes, alikes⟩ := argument_loop plain ready enough h (Nat.le_refl _) [] inner
    closeHere
  refine ⟨args', ?_, alikes⟩
  rw [Grammar.arguments_eq]
  exact .bind (.expect (by rw [openHere]; rfl) (plain.closed m (by simp [openHere])))
    (.bind (.allowIn ready.noIn goes.loop) (.bind
      (.expect (by rw [closeHere]; rfl) (plain.closed p (by simp [closeHere]))) (.pure _)))

/-! ## Calls and members -/

omit plain in
/-- One round more behind what the loop has read. -/
theorem Carries.link {e e₂ : Expr} {kind : TokenKind} {kinds' : List TokenKind} (live : kind ≠ .eof)
    (h : Carries i d kinds e anything 0 Grammar.callRound Grammar.callOrMember)
    (round : ∀ {s : State} {m n fuel : Nat} {e' : Expr}, s.Ready d → i.Shows m (kind :: kinds') n →
      Enough i fuel m 0 → e'.Alike e →
      ∃ e₂', Reads i s m ((grammar fuel).callRound e') (.again e₂') n ∧ e₂'.Alike e₂) :
    Carries i d (kinds ++ kind :: kinds') e₂ anything 0 Grammar.callRound Grammar.callOrMember := by
  intro s m n fuel ready shows _ enough
  obtain ⟨p, first, second⟩ := Input.shows_append.mp shows
  have between := first.le
  have behind := second.le
  obtain ⟨e', alike, goes⟩ := h ready first (pull_lt_anything _) enough
  obtain ⟨e₂', read, alike₂⟩ := round ready second (enough.of_pos_le (by omega)) alike
  have inside : p < i.tokens.size := i.lt_size (by rw [second.1]; exact live)
  rw [List.length_cons] at behind
  exact ⟨e₂', alike₂, fun more => goes (.again inside read (by omega) more)⟩

theorem Carries.named {e : Expr} {span : Span} {name : String} {optional : Bool}
    (h : Carries i d kinds e anything 0 Grammar.callRound Grammar.callOrMember) :
    Carries i d (kinds ++ Expr.keyKinds optional (.named name))
      (.member span e (.named name) optional) anything 0 Grammar.callRound Grammar.callOrMember := by
  refine h.link (by simp) fun {s m n fuel e'} ready shows _ alike => ?_
  obtain ⟨mark, word, rfl⟩ := shows
  have live : i.kindAt m ≠ .eof := by simp [mark]
  have property : (i.kindAt (m + 1)).propertyName? = some name := by
    rw [word, Lexer.propertyName?_wordKind]
  have live' : i.kindAt (m + 1) ≠ .eof := by
    intro eof
    rw [eof] at property
    cases property
  have closed := plain.closed m live
  have closed' := plain.closed (m + 1) live'
  refine ⟨Grammar.memberOf e' (.named name) optional (i.tokenAt (m + 1)).span, .bind .peek ?_, ?_⟩
  · rw [kind_tokenAt (i.lt_size live), mark]
    cases optional with
    | true =>
      refine .bind (.bind (.advance closed) (.bind .peekKind ?_)) (.pure _)
      split
      · rename_i paren
        rw [paren] at property
        cases property
      · rename_i bracket
        rw [bracket] at property
        cases property
      · exact .bind (.expectPropertyName property closed') (.pure _)
    | false =>
      exact .bind (.advance closed) (.bind (.bind (.expectPropertyName property closed') (.pure _))
        (.pure _))
  · simp only [Grammar.memberOf, Expr.Alike, Expr.withoutSpans, Expr.keyWithoutSpans,
      show e'.withoutSpans = _ from alike]

theorem indexedMember_reads {s : State} {m n : Nat} {e' key' : Expr} {optional : Bool}
    {inner : Parser Expr} (here : i.kindAt m = .punct .lBracket)
    (close : i.kindAt n = .punct .rBracket) (read : Reads i s (m + 1) inner key' n) :
    Reads i s m (Grammar.indexedMember e' optional inner)
      (Grammar.memberOf e' (.computed key') optional (i.tokenAt n).span) (n + 1) :=
  .bind (.advance (plain.closed m (by simp [here]))) (.bind read (.bind
    (.expect (by rw [close]; rfl) (plain.closed n (by simp [close]))) (.pure _)))

theorem Carries.computed {e key : Expr} {span : Span} {optional : Bool} {kindsK : List TokenKind}
    (h : Carries i d kinds e anything 0 Grammar.callRound Grammar.callOrMember)
    (hk : Reader i d kindsK key Printer.sequenceLevel 3 Grammar.expression) :
    Carries i d (kinds ++ ((if optional then [.punct .questionDot] else []) ++
        .punct .lBracket :: (kindsK ++ [.punct .rBracket])))
      (.member span e (.computed key) optional) anything 0 Grammar.callRound
      Grammar.callOrMember := by
  have same {e' key' : Expr} {c : Span} (alike : e'.Alike e) (alikeK : key'.Alike key) :
      (Grammar.memberOf e' (.computed key') optional c).Alike
        (.member span e (.computed key) optional) := by
    simp only [Grammar.memberOf, Expr.Alike, Expr.withoutSpans, Expr.keyWithoutSpans,
      show e'.withoutSpans = _ from alike, show key'.withoutSpans = _ from alikeK]
  cases optional with
  | true =>
    refine h.link (by simp) fun {s m n fuel e'} ready shows enough alike => ?_
    obtain ⟨mark, bracket, others⟩ := shows
    obtain ⟨p, inner, close, rfl⟩ := Input.shows_append.mp others
    have live : i.kindAt m ≠ .eof := by simp [mark]
    obtain ⟨key', read, alikeK⟩ := hk ready inner (by rw [close]; decide)
      ((enough.succ.behind (i.lt_size live) (show m < m + 1 + 1 by omega)).of_le (by decide))
    refine ⟨_, .bind .peek ?_, same (c := (i.tokenAt p).span) alike alikeK⟩
    rw [kind_tokenAt (i.lt_size live), mark]
    refine .bind (.bind (.advance (plain.closed m live)) (.bind .peekKind ?_)) (.pure _)
    rw [bracket]
    exact indexedMember_reads plain bracket close read
  | false =>
    refine h.link (by simp) fun {s m n fuel e'} ready shows enough alike => ?_
    obtain ⟨bracket, others⟩ := shows
    obtain ⟨p, inner, close, rfl⟩ := Input.shows_append.mp others
    have live : i.kindAt m ≠ .eof := by simp [bracket]
    obtain ⟨key', read, alikeK⟩ := hk ready inner (by rw [close]; decide)
      ((enough.succ.behind (i.lt_size live) (show m < m + 1 by omega)).of_le (by decide))
    refine ⟨_, .bind .peek ?_, same (c := (i.tokenAt p).span) alike alikeK⟩
    rw [kind_tokenAt (i.lt_size live), bracket]
    exact .bind (indexedMember_reads plain bracket close (.allowIn ready.noIn read)) (.pure _)

theorem Carries.call {e : Expr} {span : Span} {optional : Bool} {parts : List (List TokenKind)}
    {args : List Item} (h : Carries i d kinds e anything 0 Grammar.callRound Grammar.callOrMember)
    (ha : List.Forall₂ (Argument i d) parts args) :
    Carries i d (kinds ++ ((if optional then [.punct .questionDot] else []) ++
        grouped true (commaKinds parts)))
      (.call span e args optional) anything 0 Grammar.callRound Grammar.callOrMember := by
  have same {e' : Expr} {args' : List Item} {c : Span} (alike : e'.Alike e)
      (alikes : List.Forall₂ Item.Alike args' args) :
      (Expr.call c e' args' optional).Alike (.call span e args optional) := by
    simp only [Expr.Alike, Expr.withoutSpans, show e'.withoutSpans = _ from alike,
      Expr.itemsWithoutSpans_eq alikes]
  cases optional with
  | true =>
    refine h.link (by simp) fun {s m n fuel e'} ready shows enough alike => ?_
    obtain ⟨mark, shows⟩ := shows
    have live : i.kindAt m ≠ .eof := by simp [mark]
    obtain ⟨args', read, alikes⟩ := arguments_read plain ready ((enough.succ.behind
      (i.lt_size live) (show m < m + 1 + 1 by omega)).of_le (by decide)) ha shows
    refine ⟨_, .bind .peek ?_, same (c := e'.span.merge (i.spanBefore n)) alike alikes⟩
    rw [kind_tokenAt (i.lt_size live), mark]
    refine .bind (.bind (.advance (plain.closed m live)) (.bind .peekKind ?_)) (.pure _)
    rw [shows.1]
    exact .bind read (.bind .previous (.pure _))
  | false =>
    refine h.link (by simp) fun {s m n fuel e'} ready shows enough alike => ?_
    have live : i.kindAt m ≠ .eof := by simp [shows.1]
    obtain ⟨args', read, alikes⟩ := arguments_read plain ready ((enough.succ.behind
      (i.lt_size live) (show m < m + 1 by omega)).of_le (by decide)) ha shows
    refine ⟨_, .bind .peek ?_, same (c := e'.span.merge (i.spanBefore n)) alike alikes⟩
    rw [kind_tokenAt (i.lt_size live), shows.1]
    exact .bind (.bind read (.bind .previous (.pure _))) (.pure _)

/-- A `new` takes the first arguments behind its operand, which is no call. -/
theorem Readable.new_node {e : Expr} {span : Span} {parts : List (List TokenKind)}
    {args : List Item} (h : Readable i d kinds level e) (tight : Printer.primaryLevel ≤ level)
    (ha : List.Forall₂ (Argument i d) parts args) :
    Readable i d (.keyword .new :: (kinds ++ grouped true (commaKinds parts))) Printer.callLevel
      (.new span e args) := by
  obtain ⟨opens, primary⟩ := h.primary tight
  refine .of_chain plain ⟨_, _, rfl, rfl⟩ fun s m n fuel ready shows _ enough => ?_
  obtain ⟨here, others⟩ := shows
  obtain ⟨p, first, second⟩ := Input.shows_append.mp others
  have live : i.kindAt m ≠ .eof := by simp [here]
  have paren := second.1
  have between := first.le
  obtain _ | fuel := fuel
  · exact absurd enough (Nat.not_lt_zero _)
  have later {q : Nat} (lt : m < q) : Enough i fuel q 3 :=
    (enough.behind (i.lt_size live) lt).of_le (by decide)
  obtain ⟨e', read, alike⟩ := primary ready first (pull_lt_anything _)
    ((later (Nat.lt_succ_self m)).of_le (by decide))
  obtain ⟨args', readA, alikes⟩ := arguments_read plain ready (later (show m < p + 1 by omega)) ha
    second
  have start := opens.at first
  have noDot : (i.kindAt (m + 1)).isPunct .dot = false := by
    cases here : i.kindAt (m + 1) <;> simp_all [opensPrimary, TokenKind.isPunct]
    rintro rfl
    simp_all
  have noNew : (i.kindAt (m + 1)).isKeyword .new = false := by
    cases here : i.kindAt (m + 1) <;> simp_all [opensPrimary, TokenKind.isKeyword]
    rintro rfl
    simp_all
  have inside : p < i.tokens.size := i.lt_size (by simp [paren])
  have whole : Reads i s m (grammar (fuel + 1)).newExpr
      (.new (i.spanTo (i.tokenAt m).span n) e' args') n := by
    show Reads i s m (grammar fuel).newBody _ n
    refine .bind (.advance (plain.closed m live)) (.bind (.check _)
      (.ite_false (by simp [noDot]) ?_))
    refine .bind (.checkKeyword _) (.ite_false (by simp [noNew]) (.bind read ?_))
    refine .bind (a := e') (n := p) (Loops.loop (.done inside (.bind .peekKind ?_))) ?_
    · rw [paren]
      exact .pure _
    · refine .bind (.check _) (.ite_false (by simp [paren, TokenKind.isPunct]) ?_)
      exact .bind (.check _) (.ite_true (by simp [paren, TokenKind.isPunct])
        (.bind readA (.bind (.spanFrom _) (.pure _))))
  refine ⟨.new (i.spanTo (i.tokenAt m).span n) e' args', ?_, fun more => ?_⟩
  · simp only [Expr.Alike, Expr.withoutSpans, show e'.withoutSpans = _ from alike,
      Expr.itemsWithoutSpans_eq alikes]
  · rw [Grammar.callOrMember_eq]
    exact .bind (.checkKeyword _) (.ite_true (by simp [here, TokenKind.isKeyword])
      (.bind whole more.loop))

end

end TsxPreview.Parser
