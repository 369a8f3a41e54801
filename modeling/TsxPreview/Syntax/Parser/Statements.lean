import TsxPreview.Syntax.Parser.Expressions

/-!
Statements, imports and exports.
-/

namespace TsxPreview.Parser

def varKind? : TokenKind → Option VarKind
  | .keyword .const => some .const
  | .keyword .let => some .let
  | .keyword .var => some .var
  | _ => none

/-- `return` without a value ends here. -/
def endsStatement : Parser Bool := do
  let token ← peek
  return token.kind.isEof || token.newlineBefore || token.kind.isPunct .semicolon
    || token.kind.isPunct .rBrace

/-! ### Imports -/

/-- `type` before a name in a list is a modifier, unless it is itself the name. -/
def inlineType : Parser Bool := do
  let next ← ahead 1
  return (← checkWord "type") && !next.isPunct .comma && !next.isPunct .rBrace
    && !next.isWord "as"

/-- One name of an import list; `none` for a type, which vanishes. -/
def importName : Parser (Option ImportName) := do
  let isType ← inlineType
  if isType then
    let _ ← advance
  let imported ← match ← peekKind with
    | .string s => pure (Ident.mk s (← advance).span)
    | _ => expectPropertyName
  let name ←
    if ← checkWord "as" then
      let _ ← advance
      expectIdentifier
    else if imported.name == "default" then
      failAt .unexpectedToken "'default' must be renamed with 'as'" imported.span
    else pure imported
  return if isType then none else some ⟨imported.name, name⟩

/-- `with { … }` or `assert { … }` after a module name. -/
def importAttributes : Parser Unit := do
  let token ← peek
  let isWord := token.kind.isWord "assert" || token.kind.isWord "with"
  if isWord && !token.newlineBefore && (← ahead 1).isPunct .lBrace then
    let _ ← advance
    skipGroup

def importSource (typeOnly : Bool) (default star : Option Ident) (named : List ImportName) :
    Parser ImportDecl := do
  let _ ← expectWord "from"
  let (source, sourceSpan) ← expectString
  importAttributes
  semicolon
  return { source, sourceSpan, default, star, named, typeOnly }

/-- `import type …`, but not a default import of the name `type`. -/
def importsTypes : Parser Bool := do
  let next ← ahead 1
  let afterFrom ← match ← ahead 2 with
    | .string _ => pure true
    | _ => pure false
  return (← checkWord "type") && !(next.isWord "from" && afterFrom) && !next.isPunct .comma

def importBindings (typeOnly : Bool) (default : Option Ident) : Parser ImportDecl := do
  if ← eat .star then
    let _ ← expectWord "as"
    let star ← expectIdentifier
    importSource typeOnly default (some star) []
  else if ← eat .lBrace then
    let names ← commaList .rBrace importName
    let _ ← expect .rBrace
    importSource typeOnly default none (names.filterMap id)
  else unexpected fun got => s!"expected import bindings, got '{got}'"

def importDecl : Parser ImportDecl := do
  let _ ← advance
  match ← peekKind with
  | .string source =>
    let sourceSpan := (← advance).span
    semicolon
    return { source, sourceSpan, default := none, star := none, named := [], typeOnly := false }
  | _ =>
    let typeOnly ← importsTypes
    if typeOnly then
      let _ ← advance
    if (← peekKind).isIdentifier then
      let default ← expectIdentifier
      if ← eat .comma then importBindings typeOnly (some default)
      else importSource typeOnly (some default) none []
    else importBindings typeOnly none

/-! ### Exports -/

/-- A module has at most one default export. -/
def noteDefaultExport (span : Span) : Parser Unit := do
  match ← look fun _ s => s.defaultExport with
  | some first =>
    let message := s!"duplicate default export (first one at {first.display})"
    reportAt .duplicateDefaultExport message span
  | none => update fun s => { s with defaultExport := some span }

/-- One name of an export list; `none` for a type, which vanishes. -/
def exportName : Parser (Option ExportName) := do
  let isType ← inlineType
  if isType then
    let _ ← advance
  let name ← expectPropertyName
  let exported ←
    if ← checkWord "as" then
      let _ ← advance
      expectPropertyName
    else pure name
  if exported.name == "default" then
    noteDefaultExport exported.span
  return if isType then none else some ⟨name.name, exported.name⟩

/-- `{ a, b as c } from "source"`, the source optional. -/
def exportList : Parser ExportDecl := do
  let _ ← expect .lBrace
  let names ← commaList .rBrace exportName
  let _ ← expect .rBrace
  let names := names.filterMap id
  if ← checkWord "from" then
    let _ ← advance
    let (source, span) ← expectString
    semicolon
    return .named names (some source) (some span)
  else
    semicolon
    return .named names none none

/-- `* as ns from "source"`, the name optional. -/
def exportAll : Parser ExportDecl := do
  let _ ← advance
  let exported ←
    if ← checkWord "as" then
      let _ ← advance
      some <$> expectPropertyName
    else pure none
  let _ ← expectWord "from"
  let (source, span) ← expectString
  semicolon
  return .all source span (exported.map Ident.name)

/-- `type { T } from "source"` -/
def exportTypes : Parser Unit := do
  let _ ← advance
  skipGroup
  if ← checkWord "from" then
    let _ ← advance
    let _ ← expectString
  semicolon

namespace Grammar

variable (g : Grammar)

/-- What follows `export default`; `none` for an interface, which vanishes. -/
def exportDefault : Parser (Option ExportDecl) := do
  noteDefaultExport (← advance).span
  let kind ← peekKind
  if kind.isKeyword .function then return some (.defaultFunction (← g.functionExpr))
  else if kind.isKeyword .class then unsupported "classes" (← here)
  else if kind.isWord "async" && (← ahead 1).isKeyword .function then
    unsupported "async functions" (← here)
  else if kind.isWord "interface" then
    g.typeDeclaration
    return none
  else
    let e ← g.assignment
    semicolon
    return some (.default e)

/-- What follows `export`; `none` for types, which vanish. -/
def exported : Parser (Option ExportDecl) := do
  let kind ← peekKind
  match kind with
  | .keyword .default => g.exportDefault
  | .keyword .const | .keyword .let | .keyword .var | .keyword .function =>
    return some (.decl (← g.statement))
  | .keyword .class => unsupported "classes" (← here)
  | .keyword .enum => unsupported "enums" (← here)
  | .punct .star => some <$> exportAll
  | .punct .lBrace => some <$> exportList
  | .identifier word =>
    if ← startsTypeDeclaration word then
      g.typeDeclaration
      return none
    else if word == "type" && (← ahead 1).isPunct .lBrace then
      exportTypes
      return none
    else invalid
  | _ => invalid
where
  invalid : Parser (Option ExportDecl) :=
    unexpected fun got => s!"expected declaration after 'export', got '{got}'"

def exportStatement : Parser Stmt := do
  let start := (← advance).span
  let decl ← g.exported
  let span ← spanFrom start
  return match decl with
    | some decl => .export span decl
    | none => .empty span

/-! ### Declarations of variables -/

def declarator : Parser Declarator := do
  let start ← here
  let pattern ← g.pattern
  -- `let x!: T`
  let _ ← eat .bang
  g.annotation
  let init ← g.fallback
  return .mk pattern init (← spanFrom start)

def declarators : Parser (List Declarator) :=
  loop [] fun (acc : List Declarator) => do
    let d ← g.declarator
    if ← eat .comma then return .again (d :: acc) else return .done (d :: acc).reverse

/-! ### Control flow -/

def condition : Parser Expr := do
  let _ ← expect .lParen
  let test ← g.expression
  let _ ← expect .rParen
  return test

/-- A statement before its span is known. -/
abbrev Spanless := Span → Stmt

def ifStatement : Parser Spanless := do
  let _ ← advance
  let test ← g.condition
  let yes ← g.statement
  let no ← if ← eatKeyword .else then some <$> g.statement else pure none
  return (.if · test yes no)

def whileStatement : Parser Spanless := do
  let _ ← advance
  let test ← g.condition
  let body ← g.statement
  return (.while · test body)

def forEachKind? : TokenKind → Option ForEachKind
  | .keyword .in => some .in
  | .identifier "of" => some .of
  | _ => none

/-- A loop over values or names, after its pattern. -/
def forEachRest (each : ForEachKind) (kind : VarKind) (pattern : Pattern) : Parser Spanless := do
  let _ ← advance
  let iterable ← g.assignment
  let _ ← expect .rParen
  let body ← g.statement
  return (.forEach · each kind pattern iterable body)

/-- An expression unless `stop` stands here. -/
def expressionUnless (stop : Punct) : Parser (Option Expr) := do
  if ← check stop then return none else some <$> g.expression

/-- A counting loop, after its first part. -/
def forRest (init : Option Stmt) : Parser Spanless := do
  let _ ← expect .semicolon
  let test ← g.expressionUnless .semicolon
  let _ ← expect .semicolon
  let update ← g.expressionUnless .rParen
  let _ ← expect .rParen
  let body ← g.statement
  return (.for · init test update body)

/-- A loop whose head starts with a declaration. -/
def forDeclared (kind : VarKind) : Parser Spanless := do
  let start ← checkpoint
  let span ← here
  let _ ← advance
  let pattern ← g.pattern
  match forEachKind? (← peekKind) with
  | some each => g.forEachRest each kind pattern
  | none =>
    rewind start
    let _ ← advance
    let declarators ← forbidIn g.declarators
    g.forRest (some (.var (← spanFrom span) kind declarators))

def forStatement : Parser Spanless := do
  let start := (← advance).span
  if ← checkWord "await" then
    unsupported "async iteration loops" start
  let _ ← expect .lParen
  let kind ← peekKind
  if kind.isPunct .semicolon then g.forRest none
  else match varKind? kind with
    | some kind => g.forDeclared kind
    | none =>
      let e ← forbidIn g.expression
      if (forEachKind? (← peekKind)).isSome then
        unsupported "loops over existing bindings" e.span
      g.forRest (some (.expr e.span e))

def isCaseEnd (kind : TokenKind) : Bool :=
  kind.isKeyword .case || kind.isKeyword .default || kind.isPunct .rBrace || kind.isEof

/-- The test of a clause; `none` for the default. -/
def caseTest (seenDefault : Bool) : Parser (Option Expr) := do
  if ← eatKeyword .default then
    if seenDefault then
      reportAt .unexpectedToken "more than one 'default' clause in switch" (← previous)
    return none
  else
    let _ ← expectKeyword .case
    return some (← g.expression)

def switchCases : Parser (List SwitchCase) :=
  loop ([], false) fun ((acc, seenDefault) : List SwitchCase × Bool) => do
    if (← check .rBrace) || (← atEnd) then return .done acc.reverse
    let test ← g.caseTest seenDefault
    let _ ← expect .colon
    let body ← g.statementsUntil isCaseEnd
    if !isCaseEnd (← peekKind) then
      fail
    return .again (.mk test body :: acc, seenDefault || test.isNone)

def switchStatement : Parser Spanless := do
  let _ ← advance
  let subject ← g.condition
  let _ ← expect .lBrace
  let cases ← g.switchCases
  let _ ← expect .rBrace
  return (.switch · subject cases)

def catchParameter : Parser (Option Pattern) := do
  if ← eat .lParen then
    let pattern ← g.pattern
    g.annotation
    let _ ← expect .rParen
    return some pattern
  else return none

def tryStatement : Parser Spanless := do
  let start := (← advance).span
  let block ← g.block
  let (param, handler) ←
    if ← eatKeyword .catch then
      let param ← g.catchParameter
      pure (param, some (← g.block))
    else pure (none, none)
  let finalizer ← if ← eatKeyword .finally then some <$> g.block else pure none
  if handler.isNone && finalizer.isNone then
    failAt .unexpectedToken "'try' needs a 'catch' or 'finally' block" start
  return (.try · block param handler finalizer)

def returnStatement : Parser Spanless := do
  let _ ← advance
  let value ← if ← endsStatement then pure none else some <$> g.expression
  semicolon
  return (.return · value)

def throwStatement : Parser Spanless := do
  let _ ← advance
  let value ← g.expression
  semicolon
  return (.throw · value)

/-- A keyword with nothing but a semicolon after it. -/
def bare (make : Spanless) : Parser Spanless := do
  let _ ← advance
  semicolon
  return make

def varStatement (kind : VarKind) (start : Span) : Parser Spanless := do
  if kind == .const && (← ahead 1).isKeyword .enum then
    unsupported "enums" start
  let _ ← advance
  let declarators ← g.declarators
  semicolon
  return (.var · kind declarators)

def expressionStatement : Parser Spanless := do
  let e ← g.expression
  semicolon
  return (.expr · e)

def importStatement : Parser Spanless := do
  let next ← ahead 1
  -- a call or a member access is no declaration
  if next.isPunct .lParen || next.isPunct .dot then g.expressionStatement
  else
    let decl ← importDecl
    return (.import · decl)

def keywordStatement (k : Keyword) (start : Span) : Parser Spanless :=
  match k with
  | .import => g.importStatement
  | .const => g.varStatement .const start
  | .let => g.varStatement .let start
  | .var => g.varStatement .var start
  | .function => do
    let fn ← g.functionDecl
    return (.function · fn)
  | .if => g.ifStatement
  | .for => g.forStatement
  | .while => g.whileStatement
  | .switch => g.switchStatement
  | .break => bare (.break ·)
  | .continue => bare (.continue ·)
  | .return => g.returnStatement
  | .throw => g.throwStatement
  | .try => g.tryStatement
  | .class => unsupported "classes" start
  | .enum => unsupported "enums" start
  | .do => unsupported "do-while loops" start
  | _ => g.expressionStatement

def statementKind (start : Span) : Parser Spanless := do
  match ← peekKind with
  | .keyword k => g.keywordStatement k start
  | .punct .lBrace =>
    let stmts ← g.block
    return (.block · stmts)
  | .punct .semicolon =>
    let _ ← advance
    return (.empty ·)
  | .identifier word =>
    if ← startsTypeDeclaration word then
      g.typeDeclaration
      return (.empty ·)
    else g.expressionStatement
  | _ => g.expressionStatement

def statementBody : Parser Stmt := nested do
  let start ← here
  if (← peekKind).isKeyword .export then g.exportStatement
  else
    let make ← g.statementKind start
    return make (← spanFrom start)

/-- A whole file. A stray `}` is reported and skipped. -/
def module : Parser Module := do
  let start ← here
  let body ← loop [] fun (acc : List Stmt) => do
    if (← atEnd) || (← tooManyErrors) then return .done acc.reverse
    if ← check .rBrace then
      report .unexpectedToken "unexpected '\x7d'"
      let _ ← advance
      return .again acc
    match ← attempt g.statement with
    | some stmt => return .again (stmt :: acc)
    | none =>
      synchronize
      return .again acc
  return ⟨body, ← spanFrom start⟩

end Grammar

end TsxPreview.Parser
