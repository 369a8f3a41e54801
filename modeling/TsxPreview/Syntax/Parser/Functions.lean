import TsxPreview.Syntax.Parser.Types

/-!
Binding patterns, parameter lists and functions.
-/

namespace TsxPreview.Parser

/-- A number as the name of a property: `1`, not `1.0`. -/
def numberKey (x : Float) : String :=
  match Binary64.toInt? x with
  | some n => if n.natAbs < Nat.pow 10 15 then toString n else Style.plain.format x
  | none => Style.plain.format x

namespace Grammar

variable (g : Grammar)

/-- An expression, the comma operator included. -/
def expression : Parser Expr := do
  let first ← g.assignment
  if !(← check .comma) then return first
  let exprs ← loop [first] fun (acc : List Expr) => do
    if ← eat .comma then return .again ((← g.assignment) :: acc) else return .done acc.reverse
  return .sequence (← spanFrom first.span) exprs

/-- Statements up to a token that stops them, or up to too many errors. A statement that cannot be
read is skipped. -/
def statementsUntil (stop : TokenKind → Bool) : Parser (List Stmt) :=
  loop [] fun (acc : List Stmt) => do
    if stop (← peekKind) || (← tooManyErrors) then return .done acc.reverse
    match ← attempt g.statement with
    | some stmt => return .again (stmt :: acc)
    | none =>
      synchronize
      return .again acc

/-- Statements between braces. -/
def block : Parser (List Stmt) := do
  let _ ← expect .lBrace
  let stmts ← g.statementsUntil fun kind => kind.isPunct .rBrace || kind.isEof
  let _ ← expect .rBrace
  return stmts

/-! ### Patterns -/

/-- `= value`, if there is one. -/
def fallback : Parser (Option Expr) := do
  if ← eat .eq then return some (← g.assignment) else return none

def computedKey : Parser Key := do
  let _ ← advance
  let e ← g.assignment
  let _ ← expect .rBracket
  return .computed e

/-- The key of a pattern property, and the name that it binds when it stands alone. -/
def patternKey : Parser (Key × Option Ident) := do
  match ← peekKind with
  | .identifier name =>
    let span := (← advance).span
    return (.named name, some ⟨name, span⟩)
  | .string s =>
    let _ ← advance
    return (.named s, none)
  | .number x =>
    let _ ← advance
    return (.named (numberKey x), none)
  | .punct .lBracket => return (← g.computedKey, none)
  | _ => return (.named (← expectPropertyName).name, none)

def patternProperty : Parser PatternProperty := do
  let (key, alone) ← g.patternKey
  let pattern ←
    if ← eat .colon then g.pattern
    else match alone with
      | some id => pure (Pattern.ident id)
      | none => unexpected fun got => s!"expected ':', got '{got}'"
  return .mk key (.mk pattern (← g.fallback))

def objectPattern : Parser Pattern := do
  let _ ← expect .lBrace
  let (props, rest) ← loop [] fun (acc : List PatternProperty) => do
    if (← check .rBrace) || (← atEnd) then return .done (acc.reverse, none)
    if ← eat .dotDotDot then
      let id ← expectIdentifier
      let _ ← eat .comma
      return .done (acc.reverse, some (Pattern.ident id))
    let prop ← g.patternProperty
    if ← eat .comma then return .again (prop :: acc) else return .done ((prop :: acc).reverse, none)
  let _ ← expect .rBrace
  return .object props rest

def arrayPattern : Parser Pattern := do
  let _ ← expect .lBracket
  let (elems, rest) ← loop [] fun (acc : List (Option Binding)) => do
    if (← check .rBracket) || (← atEnd) then return .done (acc.reverse, none)
    if ← eat .comma then return .again (none :: acc)
    if ← eat .dotDotDot then
      let pattern ← g.pattern
      let _ ← eat .comma
      return .done (acc.reverse, some pattern)
    let pattern ← g.pattern
    let elem := Binding.mk pattern (← g.fallback)
    if ← eat .comma then return .again (some elem :: acc)
    else return .done ((some elem :: acc).reverse, none)
  let _ ← expect .rBracket
  return .array elems rest

/-- `name`, `{ a, b: c = 1, ...rest }` or `[x, , y = 2, ...rest]` -/
def patternBody : Parser Pattern := nested do
  match ← peekKind with
  | .punct .lBrace => g.objectPattern
  | .punct .lBracket => g.arrayPattern
  | _ => return .ident (← expectIdentifier)

/-! ### Functions -/

/-- A parameter with its optional mark and annotation. -/
def annotated : Parser Pattern := do
  let pattern ← g.pattern
  let _ ← eat .question
  g.annotation
  return pattern

/-- A parameter; `none` for an annotation of `this`, which is no parameter. -/
def parameter : Parser (Option Binding) := do
  if (← checkKeyword .this) && (← ahead 1).isPunct .colon then
    let _ ← advance
    let _ ← advance
    g.type
    return none
  else
    let pattern ← g.annotated
    return some (.mk pattern (← g.fallback))

def parameters : Parser (List Binding × Option Pattern) := do
  let _ ← expect .lParen
  let result ← loop [] fun (acc : List Binding) => do
    if (← check .rParen) || (← atEnd) then return .done (acc.reverse, none)
    if ← eat .dotDotDot then
      let pattern ← g.annotated
      let _ ← eat .comma
      return .done (acc.reverse, some pattern)
    let acc := match ← g.parameter with
      | some p => p :: acc
      | none => acc
    if ← eat .comma then return .again acc else return .done (acc.reverse, none)
  let _ ← expect .rParen
  return result

/-- Parameters, return type and block of a function whose start was read. -/
def functionRest (name : Option Ident) (start : Span) : Parser Function := do
  g.typeParametersIfAny
  let (params, rest) ← g.parameters
  g.annotation
  let body ← g.block
  return .mk name params rest (.block body) false (← spanFrom start)

/-- `function [name]<T>(params): R { body }` -/
def functionExpr : Parser Function := do
  let start := (← expectKeyword .function).span
  if ← check .star then
    unsupported "generator functions" (← here)
  let name ← match ← peekKind with
    | .identifier _ => some <$> expectIdentifier
    | _ => pure none
  g.functionRest name start

/-- A function that has a name. -/
def functionDecl : Parser Function := do
  let next ← ahead 1
  if next.isIdentifier || next.isPunct .star then g.functionExpr
  else
    let _ ← advance
    unexpected fun got => s!"expected function name, got '{got}'"

def arrowBody : Parser Body := do
  if ← check .lBrace then return .block (← g.block) else return .expr (← allowIn g.assignment)

/-- `x => body` -/
def simpleArrow : Parser Function := do
  let param ← expectIdentifier
  let _ ← expect .arrow
  let body ← g.arrowBody
  return .mk none [.mk (.ident param) none] none body true (← spanFrom param.span)

/-- `(params): R => body` -/
def arrow : Parser Function := do
  let start ← here
  let (params, rest) ← g.parameters
  g.annotation
  let _ ← expect .arrow
  let body ← g.arrowBody
  return .mk none params rest body true (← spanFrom start)

end Grammar

end TsxPreview.Parser
