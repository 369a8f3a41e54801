import TsxPreview.Proofs.Syntax.Progress.Basic

/-!
The readers of types, patterns, parameters and functions go on, and so do the loops over statements.
Where a production starts with a token of its own, the nonterminals need to go on behind that token
only.
-/

namespace TsxPreview.Parser

theorem Looks.startsTypeDeclaration (word : String) : Looks (Grammar.startsTypeDeclaration word) :=
  .bind (.newlineAhead _) fun _ => .ite (.bind (.ahead _) fun _ => .pure _) (.pure _)

namespace Grammar.Proceeds

variable {i : Input} {m : Nat} {P : TokenKind → Prop} {Q : Unit → Prop} {g : Grammar}

section

variable (ready : g.Proceeds i (m + 1))

include ready

theorem typeArguments : Runs i m P g.typeArguments Q := by
  have closed := ready.closed
  refine .first (.expect closed) fun _ => .bind (.loop (fun _ => ?_) ()) fun _ =>
    .bind (.expect closed) fun _ => .pure _
  exact .first ready.type fun _ => .bind .eatAny fun _ => .look (.check _) fun _ =>
    .ite (fun _ => .pure _) fun _ => .pure _

theorem typeParameters : Runs i m P g.typeParameters Q := by
  have closed := ready.closed
  refine .first (.expect closed) fun _ => .bind (.commaList closed ?_) fun _ =>
    .bind (.expect closed) fun _ => .pure _
  refine .look (.checkKeyword _) fun _ => .look (.checkWord _) fun _ =>
    .look (.checkKeyword _) fun _ => .look (.ahead _) fun _ => .when (fun _ => .advanceAny)
      (.bind (.expectIdentifier closed) fun _ => ?_)
  exact .whenEatKeyword closed ready.next.type (.eat closed ready.next.type (.pure _))

theorem typeParametersIfAny : Runs i m P g.typeParametersIfAny None :=
  .look (.check _) fun _ => .ite (fun _ => ready.typeParameters) fun _ => .pure _

theorem annotation : Runs i m P g.annotation None :=
  .eat ready.closed ready.type (.pure _)

theorem typePredicate : Runs i m P g.typePredicate None := by
  refine .peek fun token _ => .ite (fun word => ?_) fun _ => .pure _
  rw [Bool.and_eq_true] at word
  exact .take ready.closed (fun k same => same ▸ TokenKind.ne_eof word.1) fun _ => ready.type

theorem qualifiedRest : Runs i m P g.qualifiedRest None := by
  have closed := ready.closed
  refine .bind (.loop (fun _ => ?_) ()) fun _ =>
    .look (.check _) fun _ => .ite (fun _ => ready.typeArguments) fun _ => .pure _
  exact .eat closed (.bind (.expectPropertyName closed) fun _ => .pure _) (.done _)

theorem functionType : Runs i m P g.functionType Q := by
  have closed := ready.closed
  refine .look (.check _) fun _ => .when (fun _ => .expect closed) ?_
  exact .first (.skipGroup closed) fun _ => .bind (.expect closed) fun _ => ready.type

theorem namedType (word : String) (live : ∀ k, P k → k ≠ .eof) :
    Runs i m P (g.namedType word) Q := by
  have closed := ready.closed
  refine .look (.ahead _) fun next => .take closed live fun _ => ?_
  refine .ite (fun _ => ready.postfixType) fun _ => .ite (fun _ => ?_) fun _ =>
    .ite (fun _ => ?_) fun _ => .ite (fun _ => ready.primaryType) fun _ => ?_
  · exact .bind .advanceAny fun _ => .pure _
  · exact .bind .advanceAny fun _ => ready.next.typePredicate
  · exact .bind ready.next.qualifiedRest fun _ => ready.next.typePredicate

theorem parenthesizedType (live : ∀ k, P k → k ≠ .eof) : Runs i m P g.parenthesizedType Q := by
  refine .look (.afterGroup _) fun _ => .ite (fun _ => ready.functionType) fun _ => ?_
  exact .take ready.closed live fun _ => .bind ready.type fun _ =>
    .bind (.expect ready.closed) fun _ => .pure _

end

theorem templateType (ready : g.Proceeds i m) : Runs i m P g.templateType None := by
  refine .loop (fun _ => .first ready.type fun _ => ?_) ()
  refine .peekKind fun k _ => ?_
  split
  · exact .bind .advanceAny fun _ => .pure _
  · exact .bind .advanceAny fun _ => .pure _
  · exact .unexpected _

section

variable (ready : g.Proceeds i (m + 1))

include ready

theorem primaryTypeBody : Runs i m P g.primaryTypeBody Q := by
  have closed := ready.closed
  have invalid {P : TokenKind → Prop} : Runs i m P primaryTypeBody.invalid Q := .unexpected _
  refine .peekKind fun k _ => ?_
  split
  case h_1 => exact ready.namedType _ (by simp)
  case h_2 | h_3 | h_4 => exact .take closed (by simp) fun _ => .pure _
  case h_5 => exact .take closed (by simp) fun _ => ready.templateType
  case h_6 =>
    refine .ite (fun _ => ?_) fun _ => .ite (fun _ => ?_) fun _ => .ite (fun _ => ?_)
      fun _ => invalid
    · exact .take closed (by simp) fun _ => .bind (.expectPropertyName closed) fun _ =>
        ready.next.qualifiedRest
    · exact .take closed (by simp) fun _ => .bind ready.next.typeParametersIfAny fun _ =>
        ready.next.functionType
    · exact .take closed (by simp) fun _ => .pure _
  case h_7 =>
    refine .look (.ahead _) fun next => ?_
    split
    · exact .take closed (by simp) fun _ => .bind .advanceAny fun _ => .pure _
    · exact invalid
  case h_8 | h_9 => exact .skipGroup closed
  case h_10 => exact ready.parenthesizedType (by simp)
  case h_11 => exact .first ready.typeParameters fun _ => ready.next.functionType
  case h_12 => exact invalid

theorem postfixTypeBody (primary : Runs i m P g.primaryType All) :
    Runs i m P g.postfixTypeBody Q := by
  have closed := ready.closed
  refine .first primary fun _ => .loop (fun _ => ?_) ()
  refine .peek fun token _ => .ite (fun open' => ?_) fun _ => .done _
  rw [Bool.and_eq_true] at open'
  refine .take closed (fun k same => same ▸ TokenKind.ne_eof open'.1) fun _ => ?_
  refine .bind .eatAny fun _ => .ite (fun _ => ?_) fun _ => .pure _
  exact .bind ready.next.type fun _ => .bind (.expect closed) fun _ => .pure _

theorem unionType (postfixed : Runs i m Any g.postfixType All) : Runs i m P g.unionType Q := by
  refine .look .peekKind fun _ => .when (fun _ => .advanceAny) (.first postfixed fun _ => ?_)
  refine .loop (fun _ => .peekKind fun k _ => .ite (fun op => ?_) fun _ => .done _) ()
  exact .take ready.closed (fun _ same => same ▸ TokenKind.ne_eof op) fun _ =>
    .bind ready.next.postfixType fun _ => .pure _

theorem typeBody (postfixed : Runs i m Any g.postfixType All) : Runs i m P g.typeBody Q := by
  have closed := ready.closed
  refine .nested (.first (ready.unionType postfixed) fun _ => .peek fun token _ =>
    .ite (fun _ => ?_) fun _ => .pure _)
  refine .bind .advanceAny fun _ => .bind (ready.next.unionType ready.postfixType) fun _ => ?_
  exact .bind (.expect closed) fun _ => .bind ready.type fun _ => .bind (.expect closed) fun _ =>
    ready.type

/-! ## Declarations of types -/

theorem ambientRest : Runs i m P Grammar.ambientRest None := by
  have closed := ready.closed
  refine .loop (fun first => ?_) true
  refine .peek fun token _ => .ite (fun _ => .done _) fun more => .ite (fun _ => ?_) fun _ =>
    .ite (fun _ => ?_) fun _ => ?_
  · exact .first (.skipGroup closed) fun _ => .pure _
  · exact .first (.skipGroup closed) fun _ => .pure _
  · refine .take closed (fun k same => ?_) fun _ => .ite (fun _ => .pure _) fun _ => .pure _
    rintro rfl
    simp [← same, TokenKind.isEof] at more

theorem typeDeclaration (live : ∀ k, P k → k ≠ .eof) : Runs i m P g.typeDeclaration Q := by
  have closed := ready.closed
  refine .take closed live fun first => .ite (fun _ => ?_) fun _ => .ite (fun _ => ?_) fun _ =>
    ready.next.ambientRest
  · exact .bind (.expectIdentifier closed) fun _ => .bind ready.next.typeParametersIfAny fun _ =>
      .bind (.expect closed) fun _ => .bind ready.type fun _ => .semicolon closed
  · refine .bind (.expectIdentifier closed) fun _ =>
      .bind ready.next.typeParametersIfAny fun _ => ?_
    refine .whenEatKeyword closed (.loop (fun _ => ?_) ()) (.look (.check _) fun _ =>
      .when (fun _ => .expect closed) (.skipGroup closed))
    exact .first ready.next.type fun _ => .bind .eatAny fun _ =>
      .ite (fun _ => .pure _) fun _ => .pure _

end

end Grammar.Proceeds

namespace Grammar

variable {i : Input} {m : Nat} {g : Grammar}

/-! ## Every reader of types -/

/-- From the position `m` on every reader of types proceeds. -/
structure TypeReaders (i : Input) (m : Nat) (g : Grammar) : Prop where
  skipGroup : Takes i m Parser.skipGroup
  typeArguments : Takes i m g.typeArguments
  typeParameters : Takes i m g.typeParameters
  typeParametersIfAny : Goes i m g.typeParametersIfAny
  annotation : Goes i m g.annotation
  typePredicate : Goes i m g.typePredicate
  qualifiedRest : Goes i m g.qualifiedRest
  functionType : Takes i m g.functionType
  namedType : ∀ word, TakesSeen i m (g.namedType word)
  parenthesizedType : TakesSeen i m g.parenthesizedType
  templateType : Goes i m g.templateType
  primaryTypeBody : Takes i m g.primaryTypeBody
  postfixTypeBody : Takes i m g.postfixTypeBody
  unionType : Takes i m g.unionType
  typeBody : Takes i m g.typeBody
  ambientRest : Goes i m Grammar.ambientRest
  typeDeclaration : TakesSeen i m g.typeDeclaration

theorem Proceeds.typeReaders (ready : g.Proceeds i m) : g.TypeReaders i m where
  skipGroup := .skipGroup ready.closed
  typeArguments := ready.next.typeArguments
  typeParameters := ready.next.typeParameters
  typeParametersIfAny := ready.next.typeParametersIfAny
  annotation := ready.next.annotation
  typePredicate := ready.next.typePredicate
  qualifiedRest := ready.next.qualifiedRest
  functionType := ready.next.functionType
  namedType word := ready.next.namedType word fun _ => id
  parenthesizedType := ready.next.parenthesizedType fun _ => id
  templateType := ready.templateType
  primaryTypeBody := ready.next.primaryTypeBody
  postfixTypeBody := ready.next.postfixTypeBody ready.primaryType
  unionType := ready.next.unionType ready.postfixType
  typeBody := ready.next.typeBody ready.postfixType
  ambientRest := ready.next.ambientRest
  typeDeclaration := ready.next.typeDeclaration fun _ => id

end Grammar

/-! ## Lists of statements -/

namespace Grammar.Proceeds

variable {i : Input} {m : Nat} {P : TokenKind → Prop} {g : Grammar}

/-- An expression takes what its first assignment takes. -/
theorem expression {Q : Expr → Prop} (closed : i.Closed)
    (assignment : ∀ {P Q}, Runs i m P g.assignment Q) : Runs i m P g.expression Q := by
  refine .first assignment fun _ => .look (.check _) fun _ => .ite (fun _ => .pure _) fun _ => ?_
  refine .bind (.loop (fun _ => .eat closed ?_ (.done _)) _) fun _ =>
    .look (.spanFrom _) fun _ => .pure _
  exact .bind (assignment.mono (by omega)) fun _ => .pure _

/-- A statement that cannot be read was read in part, or synchronizing skips a token. -/
theorem statementOrSkip (ready : g.Proceeds i m) (acc : List Stmt) :
    Runs i m (fun k => k ≠ .eof ∧ k.isPunct .rBrace = false) (do
      match ← Parser.attempt g.statement with
      | some stmt => return Round.again (stmt :: acc)
      | none => do
        Parser.synchronize
        return Round.again acc : Parser (Round (List Stmt) (List Stmt))) Round.Asks := by
  have closed := ready.closed
  refine .attempt ready.statement (fun _ => .pure _) ?_ ?_
  · exact .first (.synchronize_live closed) fun _ => .pure _
  · exact .bind (.synchronize closed) fun _ => .pure _

/-- What stops the statements stops them at a closing brace and at the end of the file. -/
theorem statementsUntil (ready : g.Proceeds i m) {stop : TokenKind → Bool}
    (stops : ∀ k, stop k = false → k ≠ .eof ∧ k.isPunct .rBrace = false) :
    Runs i m P (g.statementsUntil stop) None := by
  refine .loop (fun acc => .peekKind fun k _ => .look .tooManyErrors fun _ =>
    .ite (fun _ => .done _) fun goes => ?_) []
  have live : stop k = false := by
    cases h : stop k with
    | true => simp [h] at goes
    | false => rfl
  exact (ready.statementOrSkip acc).imp (fun _ same => same ▸ stops k live) fun _ r => r

section

variable (ready : g.Proceeds i (m + 1))

include ready

theorem block {Q : List Stmt → Prop} : Runs i m P g.block Q := by
  refine .first (.expect ready.closed) fun _ => .bind (ready.statementsUntil fun k goes => ?_)
    fun _ => .bind (.expect ready.closed) fun _ => .pure _
  cases k <;> simp_all [TokenKind.isPunct, TokenKind.isEof]

/-! ### Patterns -/

theorem fallback : Runs i m P g.fallback None :=
  .eat ready.closed (.bind ready.assignment fun _ => .pure _) (.pure _)

theorem computedKey {Q : Key → Prop} (live : ∀ k, P k → k ≠ .eof) : Runs i m P g.computedKey Q :=
  .take ready.closed live fun _ => .bind ready.assignment fun _ =>
    .bind (.expect ready.closed) fun _ => .pure _

theorem patternKey {Q : Key × Option Ident → Prop} : Runs i m P g.patternKey Q := by
  have closed := ready.closed
  refine .peekKind fun k _ => ?_
  split
  · exact .take closed (by simp) fun _ => .pure _
  · exact .take closed (by simp) fun _ => .pure _
  · exact .take closed (by simp) fun _ => .pure _
  · exact .first (ready.computedKey (by simp)) fun _ => .pure _
  · exact .first (.expectPropertyName closed) fun _ => .pure _

theorem patternProperty {Q : PatternProperty → Prop} : Runs i m P g.patternProperty Q := by
  refine .first ready.patternKey fun (key, alone) => ?_
  refine .eat ready.closed ?_ ?_
  · exact .bind ready.next.pattern fun _ => .bind ready.next.next.fallback fun _ => .pure _
  · cases alone with
    | some id => exact .bind (.pure _) fun _ => .bind ready.next.fallback fun _ => .pure _
    | none => exact .bind (.unexpected _) fun _ => .bind ready.next.fallback fun _ => .pure _

theorem objectPattern {Q : Pattern → Prop} : Runs i m P g.objectPattern Q := by
  have closed := ready.closed
  refine .first (.expect closed) fun _ => .bind (.loop (fun _ => ?_) _) fun (_, _) =>
    .bind (.expect closed) fun _ => .pure _
  refine .look (.check _) fun _ => .look .atEnd fun _ => .ite (fun _ => .done _) fun _ =>
    .eat closed ?_ ?_
  · exact .bind (.expectIdentifier closed) fun _ => .bind .eatAny fun _ => .pure _
  · exact .bind ready.next.patternProperty fun _ => .eat closed (.pure _) (.done _)

theorem arrayPattern {Q : Pattern → Prop} : Runs i m P g.arrayPattern Q := by
  have closed := ready.closed
  refine .first (.expect closed) fun _ => .bind (.loop (fun _ => ?_) _) fun (_, _) =>
    .bind (.expect closed) fun _ => .pure _
  refine .look (.check _) fun _ => .look .atEnd fun _ => .ite (fun _ => .done _) fun _ =>
    .eat closed (.pure _) (.eat closed ?_ ?_)
  · exact .bind ready.next.pattern fun _ => .bind .eatAny fun _ => .pure _
  · exact .bind ready.pattern fun _ => .bind ready.next.fallback fun _ =>
      .eat closed (.pure _) (.done _)

theorem patternBody {Q : Pattern → Prop} : Runs i m P g.patternBody Q := by
  refine .nested (.peekKind fun k _ => ?_)
  split
  · exact ready.objectPattern
  · exact ready.arrayPattern
  · exact .first (.expectIdentifier ready.closed) fun _ => .pure _

end

/-! ### Functions -/

theorem annotated (ready : g.Proceeds i m) : Runs i m P g.annotated None :=
  .bind ready.pattern fun _ => .bind .eatAny fun _ => .bind ready.next.annotation fun _ => .pure _

theorem parameter (ready : g.Proceeds i m) : Runs i m P g.parameter None := by
  refine .look (.checkKeyword _) fun _ => .look (.ahead _) fun _ => .ite (fun _ => ?_) fun _ => ?_
  · exact .bind .advanceAny fun _ => .bind .advanceAny fun _ => .bind ready.type fun _ => .pure _
  · exact .bind ready.annotated fun _ => .bind ready.next.fallback fun _ => .pure _

section

variable (ready : g.Proceeds i (m + 1))

include ready

theorem parameters {Q : List Binding × Option Pattern → Prop} : Runs i m P g.parameters Q := by
  have closed := ready.closed
  refine .first (.expect closed) fun _ => .bind (.loop (fun _ => ?_) _) fun _ =>
    .bind (.expect closed) fun _ => .pure _
  refine .look (.check _) fun _ => .look .atEnd fun _ => .ite (fun _ => .done _) fun _ =>
    .eat closed ?_ ?_
  · exact .bind ready.next.annotated fun _ => .bind .eatAny fun _ => .pure _
  · exact .bind ready.parameter fun _ => .eat closed (.pure _) (.done _)

theorem functionRest {Q : Function → Prop} (name : Option Ident) (start : Span) :
    Runs i m P (g.functionRest name start) Q :=
  .bind ready.typeParametersIfAny fun _ => .first ready.parameters fun (_, _) =>
    .bind ready.next.annotation fun _ => .bind ready.next.block fun _ =>
    .look (.spanFrom _) fun _ => .pure _

theorem functionExpr {Q : Function → Prop} : Runs i m P g.functionExpr Q := by
  have closed := ready.closed
  refine .first (.expectKeyword closed) fun _ => .look (.check _) fun _ =>
    .ite (fun _ => .look .here fun _ => .failing _ _ _) fun _ => .peekKind fun k _ => ?_
  split
  · exact .bind (.map (.expectIdentifier closed)) fun _ => ready.next.functionRest _ _
  · exact .bind (.pure _) fun _ => ready.next.functionRest _ _

theorem functionDecl {Q : Function → Prop} (live : ∀ k, P k → k ≠ .eof) :
    Runs i m P g.functionDecl Q :=
  .look (.ahead _) fun _ => .ite (fun _ => ready.functionExpr) fun _ =>
    .take ready.closed live fun _ => .unexpected _

end

theorem arrowBody (ready : g.Proceeds i m) : Runs i m P g.arrowBody None :=
  .look (.check _) fun _ => .ite (fun _ => .bind ready.next.block fun _ => .pure _) fun _ =>
    .bind (.allowIn ready.assignment) fun _ => .pure _

section

variable (ready : g.Proceeds i (m + 1))

include ready

theorem simpleArrow {Q : Function → Prop} : Runs i m P g.simpleArrow Q :=
  .first (.expectIdentifier ready.closed) fun _ => .bind (.expect ready.closed) fun _ =>
    .bind ready.arrowBody fun _ => .look (.spanFrom _) fun _ => .pure _

theorem arrow {Q : Function → Prop} : Runs i m P g.arrow Q :=
  .look .here fun _ => .first ready.parameters fun (_, _) =>
    .bind ready.next.annotation fun _ => .bind (.expect ready.closed) fun _ =>
    .bind ready.arrowBody fun _ => .look (.spanFrom _) fun _ => .pure _

end

end Grammar.Proceeds

namespace Grammar

variable {i : Input} {m : Nat} {g : Grammar}

/-! ## Every reader of blocks, patterns and functions -/

/-- From the position `m` on every reader of blocks, patterns, parameters and functions proceeds. -/
structure FunctionReaders (i : Input) (m : Nat) (g : Grammar) : Prop where
  expression : Takes i m g.expression
  statementsUntil : ∀ stop : TokenKind → Bool,
    (∀ k, stop k = false → k ≠ .eof ∧ k.isPunct .rBrace = false) → Goes i m (g.statementsUntil stop)
  block : Takes i m g.block
  fallback : Goes i m g.fallback
  computedKey : TakesSeen i m g.computedKey
  patternKey : Takes i m g.patternKey
  patternProperty : Takes i m g.patternProperty
  objectPattern : Takes i m g.objectPattern
  arrayPattern : Takes i m g.arrayPattern
  patternBody : Takes i m g.patternBody
  annotated : Goes i m g.annotated
  parameter : Goes i m g.parameter
  parameters : Takes i m g.parameters
  functionRest : ∀ name start, Takes i m (g.functionRest name start)
  functionExpr : Takes i m g.functionExpr
  functionDecl : TakesSeen i m g.functionDecl
  arrowBody : Goes i m g.arrowBody
  simpleArrow : Takes i m g.simpleArrow
  arrow : Takes i m g.arrow

theorem Proceeds.functionReaders (ready : g.Proceeds i m) : g.FunctionReaders i m where
  expression := expression ready.closed ready.assignment
  statementsUntil _ stops := ready.statementsUntil stops
  block := ready.next.block
  fallback := ready.next.fallback
  computedKey := ready.next.computedKey fun _ => id
  patternKey := ready.next.patternKey
  patternProperty := ready.next.patternProperty
  objectPattern := ready.next.objectPattern
  arrayPattern := ready.next.arrayPattern
  patternBody := ready.next.patternBody
  annotated := ready.annotated
  parameter := ready.parameter
  parameters := ready.next.parameters
  functionRest name start := ready.next.functionRest name start
  functionExpr := ready.next.functionExpr
  functionDecl := ready.next.functionDecl fun _ => id
  arrowBody := ready.arrowBody
  simpleArrow := ready.next.simpleArrow
  arrow := ready.next.arrow

end Grammar

end TsxPreview.Parser
