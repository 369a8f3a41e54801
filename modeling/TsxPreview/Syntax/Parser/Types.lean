import TsxPreview.Syntax.Parser.Basic

/-!
Types are read only to find where they end: nothing of them reaches the tree.
-/

namespace TsxPreview.Parser

/-- Past a bracketed group that starts here. -/
def skipGroup : Parser Unit := do
  match ← look fun i s => i.matchingClose s.pos with
  | some close => seek close
  | none =>
    let kind ← peekKind
    failHere .unclosedDelimiter s!"'{kind.display}' is never closed"

namespace Grammar

variable (g : Grammar)

/-- `<A, B<C>>` -/
def typeArguments : Parser Unit := do
  let _ ← expect .less
  loop () fun _ => do
    g.type
    if (← eat .comma) && !(← check .greater) then return .again () else return .done ()
  let _ ← expect .greater

/-- `<T extends Base = Default, const U>` -/
def typeParameters : Parser Unit := do
  let _ ← expect .less
  let _ ← commaList .greater do
    let variance := (← checkKeyword .in) || (← checkWord "out")
    if (← checkKeyword .const) || (variance && (← ahead 1).isIdentifier) then
      let _ ← advance
    let _ ← expectIdentifier
    if ← eatKeyword .extends then g.type
    if ← eat .eq then g.type
  let _ ← expect .greater

def typeParametersIfAny : Parser Unit := do
  if ← check .less then g.typeParameters

/-- `: Type`, if there is one. -/
def annotation : Parser Unit := do
  if ← eat .colon then g.type

/-- `value is T` in the place of a return type. -/
def typePredicate : Parser Unit := do
  let token ← peek
  if token.kind.isWord "is" && !token.newlineBefore then
    let _ ← advance
    g.type

/-- The `.Name` segments and the type arguments after a type name. -/
def qualifiedRest : Parser Unit := do
  loop () fun _ => do
    if ← eat .dot then
      let _ ← expectPropertyName
      return .again ()
    else return .done ()
  if ← check .less then g.typeArguments

/-- `(params) => T` -/
def functionType : Parser Unit := do
  if !(← check .lParen) then
    let _ ← expect .lParen
  skipGroup
  let _ ← expect .arrow
  g.type

/-- A template type after its head. -/
def templateType : Parser Unit :=
  loop () fun _ => do
    g.type
    match ← peekKind with
    | .templateMiddle _ =>
      let _ ← advance
      return .again ()
    | .templateTail _ =>
      let _ ← advance
      return .done ()
    | _ => unexpected fun got => s!"expected '\x7d' in template type, got '{got}'"

/-- What can follow a type name, but not a type operator such as `keyof`. -/
def endsType (kind : TokenKind) : Bool :=
  match kind with
  | .punct p =>
    [Punct.comma, .greater, .rParen, .rBracket, .rBrace, .semicolon, .eq, .pipe, .amp].contains p
  | .eof => true
  | _ => false

def namedType (word : String) : Parser Unit := do
  let next ← ahead 1
  let _ ← advance
  if (word == "keyof" || word == "readonly" || word == "unique") && !endsType next then
    g.postfixType
  else if word == "infer" && next.isIdentifier then
    let _ ← advance
  else if word == "asserts" && next.isIdentifier then
    let _ ← advance
    g.typePredicate
  else if word == "abstract" && next.isKeyword .new then
    g.primaryType
  else
    g.qualifiedRest
    g.typePredicate

def parenthesizedType : Parser Unit := do
  if (← afterGroup 0).any (·.isPunct .arrow) then g.functionType
  else
    let _ ← advance
    g.type
    let _ ← expect .rParen

def primaryTypeBody : Parser Unit := do
  match ← peekKind with
  | .identifier word => g.namedType word
  | .string _ | .number _ | .templateWhole _ =>
    let _ ← advance
  | .templateHead _ =>
    let _ ← advance
    g.templateType
  | .keyword k =>
    if k == .typeof then
      let _ ← advance
      let _ ← expectPropertyName
      g.qualifiedRest
    else if k == .new then
      let _ ← advance
      g.typeParametersIfAny
      g.functionType
    else if k == .true || k == .false || k == .null || k == .void || k == .this then
      let _ ← advance
    else invalid
  | .punct .minus =>
    match ← ahead 1 with
    | .number _ =>
      let _ ← advance
      let _ ← advance
    | _ => invalid
  | .punct .lBrace | .punct .lBracket => skipGroup
  | .punct .lParen => g.parenthesizedType
  | .punct .less =>
    g.typeParameters
    g.functionType
  | _ => invalid
where
  invalid : Parser Unit := unexpected fun got => s!"expected a type, got '{got}'"

/-- `T[]`, `T[K]` -/
def postfixTypeBody : Parser Unit := do
  g.primaryType
  loop () fun _ => do
    let token ← peek
    if token.kind.isPunct .lBracket && !token.newlineBefore then
      let _ ← advance
      if !(← eat .rBracket) then
        g.type
        let _ ← expect .rBracket
      return .again ()
    else return .done ()

def isTypeOperator (kind : TokenKind) : Bool := kind.isPunct .pipe || kind.isPunct .amp

/-- `[|] A | B & C` -/
def unionType : Parser Unit := do
  if isTypeOperator (← peekKind) then
    let _ ← advance
  g.postfixType
  loop () fun _ => do
    if isTypeOperator (← peekKind) then
      let _ ← advance
      g.postfixType
      return .again ()
    else return .done ()

/-- A union, or `T extends U ? X : Y`. -/
def typeBody : Parser Unit := nested do
  g.unionType
  let token ← peek
  if token.kind.isKeyword .extends && !token.newlineBefore then
    let _ ← advance
    g.unionType
    let _ ← expect .question
    g.type
    let _ ← expect .colon
    g.type

/-! ### Declarations of types -/

/-- The rest of `declare …`: to the end of a block or of the line. -/
def ambientRest : Parser Unit :=
  loop true fun first => do
    let token ← peek
    if token.kind.isEof || (!first && token.newlineBefore) || token.kind.isPunct .rBrace then
      return .done ()
    if token.kind.isPunct .lBrace then
      skipGroup
      return .done ()
    if token.kind.isPunct .lParen || token.kind.isPunct .lBracket then
      skipGroup
      return .again false
    let _ ← advance
    if token.kind.isPunct .semicolon then return .done () else return .again false

/-- `type X = …;`, `interface X { … }` or `declare …`. -/
def typeDeclaration : Parser Unit := do
  let first ← advance
  if first.kind.isWord "type" then
    let _ ← expectIdentifier
    g.typeParametersIfAny
    let _ ← expect .eq
    g.type
    semicolon
  else if first.kind.isWord "interface" then
    let _ ← expectIdentifier
    g.typeParametersIfAny
    if ← eatKeyword .extends then
      loop () fun _ => do
        g.type
        if ← eat .comma then return .again () else return .done ()
    if !(← check .lBrace) then
      let _ ← expect .lBrace
    skipGroup
  else ambientRest

/-- The current word, at the start of a statement, opens a declaration of types. -/
def startsTypeDeclaration (word : String) : Parser Bool := do
  let newline ← newlineAhead 1
  if word == "type" || word == "interface" then
    return (← ahead 1).isIdentifier && !newline
  else return word == "declare" && !newline

end Grammar

end TsxPreview.Parser
