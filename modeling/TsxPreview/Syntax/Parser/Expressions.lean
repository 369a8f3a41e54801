import TsxPreview.Syntax.Parser.Markup

/-!
Expressions. From the loosest to the tightest: the comma, assignments and arrow functions,
conditionals, the binary operators by precedence, prefix and postfix operators, then calls and
member accesses.
-/

namespace TsxPreview.Parser

inductive InfixOp where
  | binary (op : BinaryOp)
  | logical (op : LogicalOp)

/-- The precedence of comparisons, of `in`, and of the erased `as` and `satisfies`. -/
def relational : Nat := 4

/-- The operator between two operands, with its precedence. -/
def infixOp? : TokenKind → Option (Nat × InfixOp)
  | .punct .pipePipe => some (1, .logical .or)
  | .punct .questionQuestion => some (1, .logical .nullish)
  | .punct .ampAmp => some (2, .logical .and)
  | .punct .eqEq => some (3, .binary .looseEq)
  | .punct .bangEq => some (3, .binary .looseNotEq)
  | .punct .eqEqEq => some (3, .binary .strictEq)
  | .punct .bangEqEq => some (3, .binary .strictNotEq)
  | .punct .less => some (relational, .binary .less)
  | .punct .greater => some (relational, .binary .greater)
  | .punct .lessEq => some (relational, .binary .lessEq)
  | .punct .greaterEq => some (relational, .binary .greaterEq)
  | .keyword .in => some (relational, .binary .in)
  | .punct .plus => some (5, .binary .add)
  | .punct .minus => some (5, .binary .sub)
  | .punct .star => some (6, .binary .mul)
  | .punct .slash => some (6, .binary .div)
  | .punct .percent => some (6, .binary .mod)
  | .punct .starStar => some (7, .binary .exp)
  | _ => none

def assignOp? : TokenKind → Option AssignOp
  | .punct .eq => some .assign
  | .punct .plusEq => some (.arithmetic .add)
  | .punct .minusEq => some (.arithmetic .sub)
  | .punct .starEq => some (.arithmetic .mul)
  | .punct .slashEq => some (.arithmetic .div)
  | .punct .percentEq => some (.arithmetic .mod)
  | .punct .ampAmpEq => some (.logical .and)
  | .punct .pipePipeEq => some (.logical .or)
  | .punct .questionQuestionEq => some (.logical .nullish)
  | _ => none

def unaryOp? : TokenKind → Option UnaryOp
  | .punct .bang => some .not
  | .punct .minus => some .neg
  | .punct .plus => some .plus
  | .keyword .typeof => some .typeOf
  | .keyword .void => some .void
  | _ => none

def updateOp? : TokenKind → Option UpdateOp
  | .punct .plusPlus => some .increment
  | .punct .minusMinus => some .decrement
  | _ => none

/-- The operand of a binary operator on its right. Only `**` groups to the right. -/
def InfixOp.rightLevel (prec : Nat) : InfixOp → Nat
  | binary .exp => prec
  | _ => prec + 1

def InfixOp.apply (op : InfixOp) (left right : Expr) : Expr :=
  let span := left.span.merge right.span
  match op with
  | binary op => .binary span op left right
  | logical op => .logical span op left right

/-- What the current token starts, as far as arrow functions go. -/
inductive ArrowShape where
  | none
  /-- `x => …` -/
  | simple
  /-- `(…) => …` -/
  | group
  /-- `(…): T => …`, or a group before the colon of a conditional. -/
  | ambiguous
  /-- `async …` -/
  | async

def arrowShape : Parser ArrowShape := do
  match ← peekKind with
  | .identifier name =>
    let next ← ahead 1
    let newline ← newlineAhead 1
    let startsAsync ←
      if name != "async" || newline then pure false
      else if next.isKeyword .function then pure true
      else if next.isIdentifier then pure ((← ahead 2).isPunct .arrow)
      else if next.isPunct .lParen then pure ((← afterGroup 1).any (·.isPunct .arrow))
      else pure false
    if startsAsync then return .async
    else if next.isPunct .arrow && !newline then return .simple
    else return .none
  | .punct .lParen =>
    match ← afterGroup 0 with
    | some (.punct .arrow) => return .group
    | some (.punct .colon) => return .ambiguous
    | _ => return .none
  | _ => return .none

/-- The tokens after a key that make it the key of a plain property or a method. -/
def followsKey (kind : TokenKind) : Bool :=
  match kind with
  | .punct p => [Punct.lParen, .colon, .comma, .rBrace, .less, .eq].contains p
  | _ => false

def rejectAsync {α : Type} (span : Span) : Parser α := unsupported "async functions" span

namespace Grammar

variable (g : Grammar)

/-! ### Literals -/

/-- The parts of a template after its head. -/
def templateParts (head : String) : Parser (List String × List Expr) :=
  loop ([head], []) fun (texts, exprs) => do
    let exprs := (← g.expression) :: exprs
    match ← peekKind with
    | .templateMiddle text =>
      let _ ← advance
      return .again (text :: texts, exprs)
    | .templateTail text =>
      let _ ← advance
      return .done ((text :: texts).reverse, exprs.reverse)
    | _ =>
      unexpected fun got => s!"expected '\x7d' closing a template substitution, got '{got}'"

def template (head : String) : Parser Expr := do
  let start := (← advance).span
  let (texts, exprs) ← allowIn (g.templateParts head)
  return .template (← spanFrom start) texts exprs

def item : Parser Item := do
  if ← eat .dotDotDot then return .spread (← g.assignment) else return .expr (← g.assignment)

/-- The elements of an array; a comma without one before it leaves a hole. -/
def arrayItems : Parser (List Item) :=
  loop [] fun (acc : List Item) => do
    if (← check .rBracket) || (← atEnd) then return .done acc.reverse
    if ← eat .comma then return .again (.hole :: acc)
    let x ← g.item
    if ← eat .comma then return .again (x :: acc) else return .done (x :: acc).reverse

def arrayLiteral : Parser Expr := do
  let start := (← expect .lBracket).span
  let items ← allowIn g.arrayItems
  let close := (← expect .rBracket).span
  return .array (start.merge close) items

def arguments : Parser (List Item) := do
  let _ ← expect .lParen
  let args ← allowIn (commaList .rParen g.item)
  let _ ← expect .rParen
  return args

def propertyKey : Parser Key := do
  match ← peekKind with
  | .string s =>
    let _ ← advance
    return .named s
  | .number x =>
    let _ ← advance
    return .named (numberKey x)
  | .punct .lBracket => g.computedKey
  | _ => return .named (← expectPropertyName).name

/-- What stands after a key: a value, the rest of a method, or nothing when the key alone is
enough. -/
def propertyValue (key : Key) (alone : Option Ident) (start : Span) : Parser Property := do
  match ← peekKind with
  | .punct .colon =>
    let _ ← advance
    return .pair key (← g.assignment)
  | .punct .lParen | .punct .less =>
    let name := match key with
      | .named name => some ⟨name, start⟩
      | .computed _ => none
    let fn ← g.functionRest name start
    return .pair key (.function fn.span fn)
  | _ =>
    match alone with
    | some id => return .shorthand id
    | none => unexpected fun got => s!"expected ':', got '{got}'"

def property : Parser Property := do
  let start ← here
  if ← eat .dotDotDot then return .spread (← g.assignment)
  let kind ← peekKind
  let bare := !followsKey (← ahead 1)
  if (kind.isWord "get" || kind.isWord "set") && bare then
    unsupported "getters and setters" start
  if kind.isWord "async" && bare then
    rejectAsync start
  let alone := match kind with
    | .identifier name => some ⟨name, start⟩
    | _ => none
  let key ← g.propertyKey
  g.propertyValue key alone start

def objectLiteral : Parser Expr := do
  let start := (← expect .lBrace).span
  let props ← allowIn (commaList .rBrace g.property)
  let close := (← expect .rBrace).span
  return .object (start.merge close) props

/-! ### Primary expressions -/

/-- Keywords that name what is outside the subset. -/
def rejected? : Keyword → Option String
  | .this => some "'this' references"
  | .class => some "classes"
  | .import => some "dynamic imports"
  | .super => some "'super' references"
  | _ => none

def keywordPrimary (k : Keyword) (start : Span) : Parser Expr := do
  match k with
  | .true =>
    let _ ← advance
    return .bool start true
  | .false =>
    let _ ← advance
    return .bool start false
  | .null =>
    let _ ← advance
    return .null start
  | .function =>
    let fn ← g.functionExpr
    return .function fn.span fn
  | _ =>
    match rejected? k with
    | some what => unsupported what start
    | none => unexpected fun got => s!"unexpected '{got}'"

def parenthesized : Parser Expr := do
  let _ ← advance
  let inner ← allowIn g.expression
  let _ ← expect .rParen
  return inner

def primary : Parser Expr := do
  let start ← here
  match ← peekKind with
  | .number x =>
    let _ ← advance
    return .number start x
  | .string s =>
    let _ ← advance
    return .string start s
  | .templateWhole text =>
    let _ ← advance
    return .template start [text] []
  | .templateHead text => g.template text
  | .identifier name =>
    let _ ← advance
    return .ident start name
  | .keyword k => g.keywordPrimary k start
  | .punct .lParen => g.parenthesized
  | .punct .lBracket => g.arrayLiteral
  | .punct .lBrace => g.objectLiteral
  | .punct .jsxLt =>
    let element ← g.element
    return .jsx element.span element
  | .punct .slash | .punct .slashEq => unsupported "regular expression literals" start
  | .eof => failHere .unexpectedToken "unexpected end of file"
  | _ => unexpected fun got => s!"unexpected '{got}'"

/-! ### Calls and members -/

def memberOf (object : Expr) (key : Key) (optional : Bool) (close : Span) : Expr :=
  .member (object.span.merge close) object key optional

/-- `.name`, after the dot. -/
def namedMember (object : Expr) (optional : Bool) : Parser Expr := do
  let name ← expectPropertyName
  return memberOf object (.named name.name) optional name.span

/-- `[key]`, the key read by `inner`. -/
def indexedMember (object : Expr) (optional : Bool) (inner : Parser Expr) : Parser Expr := do
  let _ ← advance
  let key ← inner
  let close := (← expect .rBracket).span
  return memberOf object (.computed key) optional close

def callOf (callee : Expr) (optional : Bool) : Parser Expr := do
  let args ← g.arguments
  return .call (callee.span.merge (← previous)) callee args optional

/-- `?.name`, `?.[key]` or `?.(args)` -/
def optionalMember (object : Expr) : Parser Expr := do
  let _ ← advance
  match ← peekKind with
  | .punct .lParen => g.callOf object true
  | .punct .lBracket => indexedMember object true g.expression
  | _ => namedMember object true

/-- Type arguments, if what stands here reads as such and a call follows. -/
def typeArgumentsOfCall : Parser Bool := do
  let start ← checkpoint
  let skipped ← attempt g.typeArguments
  if skipped.isSome && !(← failedSince start) && (← check .lParen) then return true
  else
    rewind start
    return false

def callOrMember : Parser Expr := do
  let first ← if ← checkKeyword .new then g.newExpr else g.primary
  loop first fun expr => do
    let token ← peek
    match token.kind with
    | .punct .dot =>
      let _ ← advance
      return .again (← namedMember expr false)
    | .punct .questionDot => return .again (← g.optionalMember expr)
    | .punct .lBracket => return .again (← indexedMember expr false (allowIn g.expression))
    | .punct .lParen => return .again (← g.callOf expr false)
    | .punct .less =>
      if ← g.typeArgumentsOfCall then return .again expr else return .done expr
    -- `ref.current!` asserts that a value is there
    | .punct .bang =>
      if token.newlineBefore then return .done expr
      else
        let _ ← advance
        return .again expr
    | .templateWhole _ | .templateHead _ =>
      if token.newlineBefore then return .done expr
      else unsupported "tagged templates" token.span
    | _ => return .done expr

/-- `new Callee<T>(args)` -/
def newBody : Parser Expr := do
  let start := (← advance).span
  if ← check .dot then
    unsupported "'new.target' references" start
  let first ← if ← checkKeyword .new then g.newExpr else g.primary
  let callee ← loop first fun expr => do
    match ← peekKind with
    | .punct .dot =>
      let _ ← advance
      return .again (← namedMember expr false)
    | .punct .lBracket => return .again (← indexedMember expr false g.expression)
    | _ => return .done expr
  if ← check .less then
    g.typeArguments
  let args ← if ← check .lParen then g.arguments else pure []
  return .new (← spanFrom start) callee args

/-! ### Operators -/

def updateOf (op : UpdateOp) (before : Bool) (target : Expr) (start : Span) : Parser Expr := do
  if target.isTarget then return .update (← spanFrom start) op before target
  else failAt .invalidAssignmentTarget "invalid increment/decrement operand" target.span

/-- An operand with the `++` or `--` that may follow it on its line. -/
def postfixed : Parser Expr := do
  let expr ← g.callOrMember
  let token ← peek
  match updateOp? token.kind with
  | some op =>
    if token.newlineBefore then return expr
    else
      let _ ← advance
      updateOf op false expr expr.span
  | none => return expr

/-- `await` before something that can be awaited. -/
def startsAwait : Parser Bool := do
  let next ← ahead 1
  let operand := next.isIdentifier || next.isPunct .lParen || next.isKeyword .new
    || next.isKeyword .this
  return (← checkWord "await") && !(← newlineAhead 1) && operand

def unaryBody : Parser Expr := do
  let start ← here
  let kind ← peekKind
  match unaryOp? kind with
  | some op =>
    let _ ← advance
    let operand ← nested g.unary
    return .unary (start.merge operand.span) op operand
  | none =>
    match updateOp? kind with
    | some op =>
      let _ ← advance
      let target ← g.unary
      updateOf op true target start
    | none =>
      if kind.isKeyword .delete then
        unsupported "delete expressions" start
      if ← startsAwait then
        unsupported "await expressions" start
      g.postfixed

/-- `as T` and `satisfies T` after an operand are erased. -/
def cast : Parser Unit := do
  let _ ← advance
  if !(← eatKeyword .const) then
    g.type

/-- Operands joined by operators of at least the precedence `least`. -/
def binaryBody (least : Nat) : Parser Expr := do
  let first ← g.unary
  loop first fun left => do
    let token ← peek
    let isCast := token.kind.isWord "as" || token.kind.isWord "satisfies"
    if isCast && !token.newlineBefore && least ≤ relational then
      g.cast
      return .again (left.withSpan (← spanFrom left.span))
    if token.kind.isKeyword .instanceof then
      unsupported "instanceof checks" token.span
    match infixOp? token.kind with
    | none => return .done left
    | some (prec, op) =>
      let noIn ← look fun _ s => s.noIn
      if prec < least || (noIn && token.kind.isKeyword .in) then return .done left
      let _ ← advance
      let right ← g.binary (op.rightLevel prec)
      return .again (op.apply left right)

def conditional : Parser Expr := do
  let test ← g.binary 0
  if !(← eat .question) then return test
  let yes ← allowIn g.assignment
  let _ ← expect .colon
  let no ← g.assignment
  return .conditional (test.span.merge no.span) test yes no

def functionExprOf (fn : Function) : Expr := .function fn.span fn

/-- An assignment, or just its target when no operator follows. -/
def plainAssignment : Parser Expr := do
  let target ← g.conditional
  match assignOp? (← peekKind) with
  | none => return target
  | some op =>
    if !target.isTarget then
      failAt .invalidAssignmentTarget "invalid assignment target" target.span
    let _ ← advance
    let value ← g.assignment
    return .assign (target.span.merge value.span) op target value

def assignmentBody : Parser Expr := nested do
  match ← arrowShape with
  | .simple => return functionExprOf (← g.simpleArrow)
  | .group => return functionExprOf (← g.arrow)
  | .ambiguous =>
    let start ← checkpoint
    match ← attempt g.arrow with
    | some fn =>
      if ← failedSince start then
        rewind start
        g.plainAssignment
      else return functionExprOf fn
    | none =>
      rewind start
      g.plainAssignment
  | .async =>
    let span ← here
    rejectAsync span
  | .none => g.plainAssignment

end Grammar

end TsxPreview.Parser
