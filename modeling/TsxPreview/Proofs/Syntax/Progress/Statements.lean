import TsxPreview.Proofs.Syntax.Progress.Expressions

/-!
The readers of statements go on, and so does the reader of a whole file, wherever statements cannot
be read.
-/

namespace TsxPreview.Parser

theorem Looks.endsStatement : Looks endsStatement := .bind .peek fun _ => .pure _

theorem Looks.inlineType : Looks inlineType :=
  .bind (.ahead _) fun _ => .bind (.checkWord _) fun _ => .pure _

theorem Looks.importsTypes : Looks importsTypes := by
  refine .bind (.ahead _) fun next => .bind (.ahead _) fun after => ?_
  have rest (afterFrom : Bool) : Looks (do
      return (← Parser.checkWord "type") && !(next.isWord "from" && afterFrom)
        && !next.isPunct .comma) :=
    .bind (.checkWord _) fun _ => .pure _
  split
  · exact .bind (.pure _) rest
  · exact .bind (.pure _) rest

namespace Runs

variable {i : Input} {m : Nat} {P : TokenKind → Prop}

/-! ### Imports -/

section

variable (closed : i.Closed)

include closed

theorem importName : Runs i m P Parser.importName None := by
  have name (isType : Bool) (imported : Ident) : Runs i m Any (do
      let name ←
        if ← checkWord "as" then
          let _ ← Parser.advance
          Parser.expectIdentifier
        else if imported.name == "default" then
          Parser.failAt .unexpectedToken "'default' must be renamed with 'as'" imported.span
        else Pure.pure imported
      return if isType then .none else some (ImportName.mk imported.name name)) None := by
    refine .look (.checkWord _) fun _ => .ite (fun _ => ?_) fun _ =>
      .ite (fun _ => .failing _ _ _) fun _ => .bind (.pure _) fun _ => .pure _
    exact .bind .advanceAny fun _ => .bind (.expectIdentifier closed) fun _ => .pure _
  refine .look .inlineType fun isType => .when (fun _ => .advanceAny) (.peekKind fun k _ => ?_)
  cases k with
  | string s => exact .bind .advanceAny fun _ => .bind (.pure _) fun _ => name isType _
  | _ => exact .bind (.expectPropertyName closed) fun _ => name isType _

theorem importAttributes : Runs i m P Parser.importAttributes None := by
  refine .look .peek fun _ => .look (.ahead _) fun _ => .ite (fun _ => ?_) fun _ => .pure _
  exact .bind .advanceAny fun _ => .skipGroup closed

theorem importSource (typeOnly : Bool) (default star : Option Ident) (named : List ImportName) :
    Runs i m P (Parser.importSource typeOnly default star named) None :=
  .bind (.expectWord closed) fun _ => .bind (.expectString closed) fun (_, _) =>
    .bind (importAttributes closed) fun _ => .bind (.semicolon closed) fun _ => .pure _

theorem importBindings (typeOnly : Bool) (default : Option Ident) :
    Runs i m P (Parser.importBindings typeOnly default) None := by
  refine .eat closed ?_ (.eat closed ?_ (.ite nofun fun _ => .unexpected _))
  · exact .bind (.expectWord closed) fun _ => .bind (.expectIdentifier closed) fun _ =>
      importSource closed _ _ _ _
  · exact .bind (.commaList closed (importName closed)) fun _ => .bind (.expect closed) fun _ =>
      importSource closed _ _ _ _

theorem importDecl {Q : ImportDecl → Prop} (live : ∀ k, P k → k ≠ .eof) :
    Runs i m P Parser.importDecl Q := by
  refine .take closed live fun _ => .peekKind fun k _ => ?_
  split
  · exact .bind .advanceAny fun _ => .bind (.semicolon closed) fun _ => .pure _
  · refine .look .importsTypes fun typeOnly => .when (fun _ => .advanceAny) ?_
    refine .look .peekKind fun _ => .ite (fun _ => ?_) fun _ => importBindings closed _ _
    exact .bind (.expectIdentifier closed) fun _ => .eat closed (importBindings closed _ _)
      (importSource closed _ _ _ _)

/-! ### Exports -/

omit closed in
theorem noteDefaultExport (span : Span) : Runs i m P (Parser.noteDefaultExport span) None := by
  refine .look (.look _) fun first => ?_
  cases first with
  | some first => exact .reportAt _ _ _
  | none => exact fun s _ inside _ => ⟨⟨Nat.le_refl _, inside, rfl⟩, False.elim⟩

theorem exportName : Runs i m P Parser.exportName None := by
  have noted (isType : Bool) (name exported : Ident) : Runs i m Any (do
      if exported.name == "default" then
        Parser.noteDefaultExport exported.span
      return if isType then .none else some (ExportName.mk name.name exported.name)) None :=
    .when (fun _ => noteDefaultExport _) (.pure _)
  refine .look .inlineType fun isType => .when (fun _ => .advanceAny) ?_
  refine .bind (.expectPropertyName closed) fun name => .look (.checkWord _) fun _ =>
    .ite (fun _ => ?_) fun _ => .bind (.pure _) fun _ => noted _ _ _
  exact .bind .advanceAny fun _ => .bind (.expectPropertyName closed) fun _ => noted _ _ _

theorem exportList {Q : ExportDecl → Prop} : Runs i m P Parser.exportList Q := by
  refine .first (.expect closed) fun _ => .bind (.commaList closed (exportName closed)) fun _ => ?_
  refine .bind (.expect closed) fun _ => .look (.checkWord _) fun _ =>
    .ite (fun _ => ?_) fun _ => ?_
  · exact .bind .advanceAny fun _ => .bind (.expectString closed) fun (_, _) =>
      .bind (.semicolon closed) fun _ => .pure _
  · exact .bind (.semicolon closed) fun _ => .pure _

theorem exportAll {Q : ExportDecl → Prop} (live : ∀ k, P k → k ≠ .eof) :
    Runs i m P Parser.exportAll Q := by
  refine .take closed live fun _ => .look (.checkWord _) fun _ => .ite (fun _ => ?_) fun _ => ?_
  · exact .bind .advanceAny fun _ => .bind (.map (.expectPropertyName closed)) fun _ =>
      .bind (.expectWord closed) fun _ => .bind (.expectString closed) fun (_, _) =>
      .bind (.semicolon closed) fun _ => .pure _
  · exact .bind (.pure _) fun _ => .bind (.expectWord closed) fun _ =>
      .bind (.expectString closed) fun (_, _) => .bind (.semicolon closed) fun _ => .pure _

theorem exportTypes {Q : Unit → Prop} (live : ∀ k, P k → k ≠ .eof) :
    Runs i m P Parser.exportTypes Q := by
  refine .take closed live fun _ => .bind (.skipGroup closed) fun _ => .look (.checkWord _) fun _ =>
    .ite (fun _ => ?_) fun _ => .semicolon closed
  exact .bind .advanceAny fun _ => .bind (.expectString closed) fun _ => .semicolon closed

end

end Runs

namespace Grammar.Proceeds

variable {i : Input} {m : Nat} {P : TokenKind → Prop} {g : Grammar}

section

variable (ready : g.Proceeds i (m + 1))

include ready

theorem exportDefault {Q : Option ExportDecl → Prop} (live : ∀ k, P k → k ≠ .eof) :
    Runs i m P g.exportDefault Q := by
  have closed := ready.closed
  refine .take closed live fun token => .bind (.noteDefaultExport _) fun _ =>
    .peekKind fun k _ => ?_
  refine .ite (fun _ => .first ready.next.functionExpr fun _ => .pure _) fun _ =>
    .ite (fun _ => .look .here fun _ => .unsupported _ _) fun _ => .look (.ahead _) fun _ =>
    .ite (fun _ => .look .here fun _ => .unsupported _ _) fun _ => .ite (fun word => ?_) fun _ => ?_
  · exact .bind (ready.next.typeDeclaration fun k same => same ▸ TokenKind.ne_eof word)
      fun _ => .pure _
  · exact .bind ready.assignment fun _ => .bind (.semicolon closed) fun _ => .pure _

end

theorem exported (ready : g.Proceeds i m) : Runs i m P g.exported None := by
  have closed := ready.closed
  have invalid {P : TokenKind → Prop} : Runs i m P exported.invalid None := .unexpected _
  refine .peekKind fun k _ => ?_
  split
  case h_1 => exact ready.next.exportDefault (by simp)
  case h_2 | h_3 | h_4 | h_5 => exact .first ready.statement fun _ => .pure _
  case h_6 | h_7 => exact .look .here fun _ => .unsupported _ _
  case h_8 => exact .map (.exportAll closed (by simp))
  case h_9 => exact .map (.exportList closed)
  case h_10 =>
    refine .look (.startsTypeDeclaration _) fun _ => .ite (fun _ => ?_) fun _ =>
      .look (.ahead _) fun _ => .ite (fun _ => ?_) fun _ => invalid
    · exact .first (ready.next.typeDeclaration (by simp)) fun _ => .pure _
    · exact .first (.exportTypes closed (by simp)) fun _ => .pure _
  case h_11 => exact invalid

section

variable (ready : g.Proceeds i (m + 1))

include ready

theorem exportStatement {Q : Stmt → Prop} (live : ∀ k, P k → k ≠ .eof) :
    Runs i m P g.exportStatement Q := by
  refine .take ready.closed live fun _ => .bind ready.exported fun decl =>
    .look (.spanFrom _) fun _ => ?_
  cases decl <;> exact .pure _

/-! ### Declarations of variables -/

omit ready in
theorem declarator (ready : g.Proceeds i m) : Runs i m P g.declarator None :=
  .look .here fun _ => .bind ready.pattern fun _ => .bind .eatAny fun _ =>
    .bind ready.next.annotation fun _ => .bind ready.next.fallback fun _ =>
    .look (.spanFrom _) fun _ => .pure _

omit ready in
theorem declarators (ready : g.Proceeds i m) : Runs i m P g.declarators None :=
  .loop (fun _ => .bind ready.declarator fun _ => .eat ready.closed (.pure _) (.done _)) []

/-! ### Control flow -/

theorem condition {Q : Expr → Prop} : Runs i m P g.condition Q :=
  .first (.expect ready.closed) fun _ => .bind (expression ready.closed ready.assignment) fun _ =>
    .bind (.expect ready.closed) fun _ => .pure _

theorem ifStatement {Q : Spanless → Prop} (live : ∀ k, P k → k ≠ .eof) :
    Runs i m P g.ifStatement Q := by
  refine .take ready.closed live fun _ => .bind ready.next.condition fun _ =>
    .bind ready.statement fun _ => .eatKeyword ready.closed ?_ ?_
  · exact .bind (.map ready.next.statement) fun _ => .pure _
  · exact .bind (.pure _) fun _ => .pure _

theorem whileStatement {Q : Spanless → Prop} (live : ∀ k, P k → k ≠ .eof) :
    Runs i m P g.whileStatement Q :=
  .take ready.closed live fun _ => .bind ready.next.condition fun _ =>
    .bind ready.statement fun _ => .pure _

omit ready in
theorem forEachRest (ready : g.Proceeds i m) (each : ForEachKind) (kind : VarKind)
    (pattern : Pattern) : Runs i m P (g.forEachRest each kind pattern) None :=
  .bind .advanceAny fun _ => .bind ready.assignment fun _ =>
    .bind (.expect ready.closed) fun _ => .bind ready.statement fun _ => .pure _

omit ready in
theorem expressionUnless (ready : g.Proceeds i m) (stop : Punct) :
    Runs i m P (g.expressionUnless stop) None :=
  .look (.check _) fun _ => .ite (fun _ => .pure _) fun _ =>
    .map (expression ready.closed ready.assignment)

theorem forRest (init : Option Stmt) {Q : Spanless → Prop} : Runs i m P (g.forRest init) Q :=
  .first (.expect ready.closed) fun _ => .bind (ready.expressionUnless _) fun _ =>
    .bind (.expect ready.closed) fun _ => .bind (ready.expressionUnless _) fun _ =>
    .bind (.expect ready.closed) fun _ => .bind ready.statement fun _ => .pure _

end

/-- The head of a counting loop is read again, as declarators. -/
theorem forDeclared (ready : g.Proceeds i m) (kind : VarKind) :
    Runs i m P (g.forDeclared kind) None := by
  have declared (span : Span) : Runs i m P (do
      let _ ← Parser.advance
      let declarators ← Parser.forbidIn g.declarators
      g.forRest (some (.var (← Parser.spanFrom span) kind declarators))) None :=
    .bind .advanceAny fun _ => .bind (.forbidIn ready.declarators) fun _ =>
      .look (.spanFrom _) fun _ => ready.next.forRest _
  refine .checkpoint fun s start inside here c back => Runs.look_at .here fun span => ?_
  refine Runs.since .advanceAny start (.refl inside) fun _ t reaches => ?_
  refine Runs.since ready.pattern start reaches fun pattern t reaches => ?_
  refine Runs.look_at .peekKind fun k => ?_
  cases forEachKind? k with
  | some each =>
    have rest : Runs i m Any _ None := ready.forEachRest each kind pattern
    exact rest.behind start reaches
  | none => exact Runs.rewind (declared span _ start inside here) reaches back inside

section

variable (ready : g.Proceeds i (m + 1))

include ready

theorem forStatement {Q : Spanless → Prop} (live : ∀ k, P k → k ≠ .eof) :
    Runs i m P g.forStatement Q := by
  have closed := ready.closed
  refine .take closed live fun token => .look (.checkWord _) fun _ =>
    .ite (fun _ => .failing _ _ _) fun _ => .bind (.expect closed) fun _ =>
    .look .peekKind fun k => ?_
  refine .ite (fun _ => ready.next.forRest _) fun _ => ?_
  split
  · exact ready.forDeclared _
  · exact .bind (.forbidIn (expression closed ready.assignment)) fun _ => .look .peekKind fun _ =>
      .ite (fun _ => .failing _ _ _) fun _ => ready.next.forRest _

theorem caseTest {Q : Option Expr → Prop} (seenDefault : Bool) :
    Runs i m P (g.caseTest seenDefault) Q := by
  have closed := ready.closed
  refine .eatKeyword closed ?_ ?_
  · refine .ite (fun _ => .ite (fun _ => .look .previous fun _ => ?_) fun _ => .pure _) nofun
    exact .bind (.reportAt _ _ _) fun _ => .pure _
  · exact .first (.expectKeyword closed) fun _ =>
      .bind (expression closed ready.assignment) fun _ => .pure _

theorem switchCases : Runs i m P g.switchCases None := by
  refine .loop (fun (_, _) => .look (.check _) fun _ => .look .atEnd fun _ =>
    .ite (fun _ => .done _) fun _ => ?_) _
  refine .first (ready.caseTest _) fun _ => .bind (.expect ready.closed) fun _ => ?_
  refine .bind (ready.statementsUntil fun k goes => ?_) fun _ => .look .peekKind fun _ =>
    .when (fun _ => .fail) (.pure _)
  cases k <;> simp_all [isCaseEnd, TokenKind.isPunct, TokenKind.isEof]

theorem switchStatement {Q : Spanless → Prop} (live : ∀ k, P k → k ≠ .eof) :
    Runs i m P g.switchStatement Q :=
  .take ready.closed live fun _ => .bind ready.next.condition fun _ =>
    .bind (.expect ready.closed) fun _ => .bind ready.next.switchCases fun _ =>
    .bind (.expect ready.closed) fun _ => .pure _

theorem catchParameter : Runs i m P g.catchParameter None :=
  .eat ready.closed (.bind ready.pattern fun _ => .bind ready.next.annotation fun _ =>
    .bind (.expect ready.closed) fun _ => .pure _) (.pure _)

theorem tryStatement {Q : Spanless → Prop} (live : ∀ k, P k → k ≠ .eof) :
    Runs i m P g.tryStatement Q := by
  have closed := ready.closed
  have finish (start : Span) (block : List Stmt) (param : Option Pattern)
      (handler : Option (List Stmt)) : Runs i (m + 1) Any (do
      let finalizer ← if ← Parser.eatKeyword .finally then some <$> g.block else Pure.pure none
      if handler.isNone && finalizer.isNone then
        Parser.failAt .unexpectedToken "'try' needs a 'catch' or 'finally' block" start
      return (Stmt.try · block param handler finalizer)) None := by
    refine .eatKeyword closed ?_ ?_
    · exact .bind (.map ready.next.next.block) fun _ => .ite (fun _ => .failing _ _ _)
        fun _ => .pure _
    · exact .bind (.pure _) fun _ => .ite (fun _ => .failing _ _ _) fun _ => .pure _
  refine .take closed live fun token => .bind ready.next.block fun block => .eatKeyword closed ?_ ?_
  · exact .bind ready.next.next.catchParameter fun _ => .bind ready.next.next.block fun _ =>
      .bind (.pure _) fun _ => (finish _ _ _ _).mono (Nat.le_succ _)
  · exact .bind (.pure _) fun _ => finish _ _ _ _

theorem returnStatement {Q : Spanless → Prop} (live : ∀ k, P k → k ≠ .eof) :
    Runs i m P g.returnStatement Q := by
  have closed := ready.closed
  refine .take closed live fun _ => .look .endsStatement fun _ => .ite (fun _ => ?_) fun _ => ?_
  · exact .bind (.pure _) fun _ => .bind (.semicolon closed) fun _ => .pure _
  · exact .bind (.map (expression closed ready.assignment)) fun _ =>
      .bind (.semicolon closed) fun _ => .pure _

theorem throwStatement {Q : Spanless → Prop} (live : ∀ k, P k → k ≠ .eof) :
    Runs i m P g.throwStatement Q :=
  .take ready.closed live fun _ => .bind (expression ready.closed ready.assignment) fun _ =>
    .bind (.semicolon ready.closed) fun _ => .pure _

omit ready in
theorem bare {Q : Spanless → Prop} (closed : i.Closed) (make : Spanless)
    (live : ∀ k, P k → k ≠ .eof) : Runs i m P (bare make) Q :=
  .take closed live fun _ => .bind (.semicolon closed) fun _ => .pure _

theorem varStatement {Q : Spanless → Prop} (kind : VarKind) (start : Span)
    (live : ∀ k, P k → k ≠ .eof) : Runs i m P (g.varStatement kind start) Q := by
  refine .look (.ahead _) fun _ => .ite (fun _ => .failing _ _ _) fun _ => ?_
  exact .take ready.closed live fun _ => .bind ready.declarators fun _ =>
    .bind (.semicolon ready.closed) fun _ => .pure _

omit ready in
theorem expressionStatement {Q : Spanless → Prop} (closed : i.Closed)
    (assignment : ∀ {P Q}, Runs i m P g.assignment Q) : Runs i m P g.expressionStatement Q :=
  .first (expression closed assignment) fun _ => .bind (.semicolon closed) fun _ => .pure _

section

variable (assignment : ∀ {P Q}, Runs i m P g.assignment Q)

include assignment

theorem importStatement {Q : Spanless → Prop} (live : ∀ k, P k → k ≠ .eof) :
    Runs i m P g.importStatement Q :=
  .look (.ahead _) fun _ => .ite (fun _ => expressionStatement ready.closed assignment) fun _ =>
    .first (.importDecl ready.closed live) fun _ => .pure _

theorem keywordStatement {Q : Spanless → Prop} (k : Keyword) (start : Span)
    (live : ∀ k, P k → k ≠ .eof) : Runs i m P (g.keywordStatement k start) Q := by
  have closed := ready.closed
  unfold Grammar.keywordStatement
  split
  · exact ready.importStatement assignment live
  · exact ready.varStatement _ _ live
  · exact ready.varStatement _ _ live
  · exact ready.varStatement _ _ live
  · exact .first (ready.functionDecl live) fun _ => .pure _
  · exact ready.ifStatement live
  · exact ready.forStatement live
  · exact ready.whileStatement live
  · exact ready.switchStatement live
  · exact bare closed _ live
  · exact bare closed _ live
  · exact ready.returnStatement live
  · exact ready.throwStatement live
  · exact ready.tryStatement live
  · exact .unsupported _ _
  · exact .unsupported _ _
  · exact .unsupported _ _
  · exact expressionStatement closed assignment

theorem statementKind {Q : Spanless → Prop} (start : Span) :
    Runs i m P (g.statementKind start) Q := by
  refine .peekKind fun k _ => ?_
  split
  · exact ready.keywordStatement assignment _ _ (by simp)
  · exact .first ready.block fun _ => .pure _
  · exact .take ready.closed (by simp) fun _ => .pure _
  · refine .look (.startsTypeDeclaration _) fun _ => .ite (fun _ => ?_) fun _ => ?_
    · exact .first (ready.typeDeclaration (by simp)) fun _ => .pure _
    · exact expressionStatement ready.closed assignment
  · exact expressionStatement ready.closed assignment

theorem statementBody {Q : Stmt → Prop} : Runs i m P g.statementBody Q := by
  refine .nested (.look .here fun start => .peekKind fun k _ => .ite (fun word => ?_) fun _ => ?_)
  · exact ready.exportStatement fun k same => same ▸ TokenKind.ne_eof word
  · exact .first (ready.statementKind assignment start) fun _ => .look (.spanFrom _)
      fun _ => .pure _

end

end

/-! ### Files -/

theorem module (ready : g.Proceeds i m) : Runs i m P g.module None := by
  have closed := ready.closed
  refine .look .here fun start => .bind (.loop (fun acc => .test ?_ ?_) []) fun _ =>
    .look (.spanFrom _) fun _ => .pure _
  · exact .look .tooManyErrors fun _ => .done _
  refine .look .tooManyErrors fun _ => .ite (fun _ => .done _) fun _ => .check ?_ ?_
  · exact .reporting _ _ (.take closed (fun k h => k.ne_eof h.2) fun _ => .pure _)
  · refine (ready.statementOrSkip acc).imp (fun k h => ⟨?_, h.2⟩) fun _ r => r
    rintro rfl
    cases h.1.2

end Grammar.Proceeds

namespace Grammar

variable {i : Input} {m : Nat} {g : Grammar}

/-! ## Every reader of statements -/

/-- From the position `m` on every reader of statements, imports, exports and files proceeds. -/
structure StatementReaders (i : Input) (m : Nat) (g : Grammar) : Prop where
  importName : Goes i m Parser.importName
  importAttributes : Goes i m Parser.importAttributes
  importSource : ∀ typeOnly default star named,
    Goes i m (Parser.importSource typeOnly default star named)
  importBindings : ∀ typeOnly default, Goes i m (Parser.importBindings typeOnly default)
  importDecl : TakesSeen i m Parser.importDecl
  noteDefaultExport : ∀ span, Goes i m (Parser.noteDefaultExport span)
  exportName : Goes i m Parser.exportName
  exportList : Takes i m Parser.exportList
  exportAll : TakesSeen i m Parser.exportAll
  exportTypes : TakesSeen i m Parser.exportTypes
  exportDefault : TakesSeen i m g.exportDefault
  exported : Goes i m g.exported
  exportStatement : TakesSeen i m g.exportStatement
  declarator : Goes i m g.declarator
  declarators : Goes i m g.declarators
  condition : Takes i m g.condition
  ifStatement : TakesSeen i m g.ifStatement
  whileStatement : TakesSeen i m g.whileStatement
  forEachRest : ∀ each kind pattern, Goes i m (g.forEachRest each kind pattern)
  expressionUnless : ∀ stop, Goes i m (g.expressionUnless stop)
  forRest : ∀ init, Takes i m (g.forRest init)
  forDeclared : ∀ kind, Goes i m (g.forDeclared kind)
  forStatement : TakesSeen i m g.forStatement
  caseTest : ∀ seenDefault, Takes i m (g.caseTest seenDefault)
  switchCases : Goes i m g.switchCases
  switchStatement : TakesSeen i m g.switchStatement
  catchParameter : Goes i m g.catchParameter
  tryStatement : TakesSeen i m g.tryStatement
  returnStatement : TakesSeen i m g.returnStatement
  throwStatement : TakesSeen i m g.throwStatement
  bare : ∀ make, TakesSeen i m (Grammar.bare make)
  varStatement : ∀ kind start, TakesSeen i m (g.varStatement kind start)
  expressionStatement : Takes i m g.expressionStatement
  importStatement : TakesSeen i m g.importStatement
  keywordStatement : ∀ k start, TakesSeen i m (g.keywordStatement k start)
  statementKind : ∀ start, Takes i m (g.statementKind start)
  statementBody : Takes i m g.statementBody
  synchronize : Goes i m Parser.synchronize
  module : Goes i m g.module

theorem Proceeds.statementReaders (ready : g.Proceeds i m) : g.StatementReaders i m where
  importName := .importName ready.closed
  importAttributes := .importAttributes ready.closed
  importSource typeOnly default star named :=
    .importSource ready.closed typeOnly default star named
  importBindings typeOnly default := .importBindings ready.closed typeOnly default
  importDecl := .importDecl ready.closed fun _ => id
  noteDefaultExport span := .noteDefaultExport span
  exportName := .exportName ready.closed
  exportList := .exportList ready.closed
  exportAll := .exportAll ready.closed fun _ => id
  exportTypes := .exportTypes ready.closed fun _ => id
  exportDefault := ready.next.exportDefault fun _ => id
  exported := ready.exported
  exportStatement := ready.next.exportStatement fun _ => id
  declarator := ready.declarator
  declarators := ready.declarators
  condition := ready.next.condition
  ifStatement := ready.next.ifStatement fun _ => id
  whileStatement := ready.next.whileStatement fun _ => id
  forEachRest each kind pattern := ready.forEachRest each kind pattern
  expressionUnless stop := ready.expressionUnless stop
  forRest init := ready.next.forRest init
  forDeclared kind := ready.forDeclared kind
  forStatement := ready.next.forStatement fun _ => id
  caseTest seenDefault := ready.next.caseTest seenDefault
  switchCases := ready.next.switchCases
  switchStatement := ready.next.switchStatement fun _ => id
  catchParameter := ready.next.catchParameter
  tryStatement := ready.next.tryStatement fun _ => id
  returnStatement := ready.next.returnStatement fun _ => id
  throwStatement := ready.next.throwStatement fun _ => id
  bare make := bare ready.closed make fun _ => id
  varStatement kind start := ready.next.varStatement kind start fun _ => id
  expressionStatement := expressionStatement ready.closed ready.assignment
  importStatement := ready.next.importStatement ready.assignment fun _ => id
  keywordStatement k start := ready.next.keywordStatement ready.assignment k start fun _ => id
  statementKind start := ready.next.statementKind ready.assignment start
  statementBody := ready.next.statementBody ready.assignment
  synchronize := .synchronize ready.closed
  module := ready.module

end Grammar

end TsxPreview.Parser
