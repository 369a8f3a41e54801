import TsxPreview.Syntax.Parser.Functions

/-!
Markup. The lexer has already split it into tags, raw text and containers; here every opening tag is
matched with a closing tag of the same name.
-/

namespace TsxPreview.Parser

/-- Host tags start with a lower-case letter or contain a dash; other names refer to components. -/
def isHostTag (name : String) : Bool :=
  name.toList.contains '-' || name.toList.head?.any fun c => 'a' ≤ c && c ≤ 'z'

namespace Grammar

variable (g : Grammar)

/-- A dotted name after its first part. -/
def dottedName (first : Ident) : Parser (JsxName × String) :=
  loop (Expr.ident first.span first.name, first.name) fun (expr, text) => do
    if ← eat .dot then
      let part ← expectIdentifier
      let member : Expr := .member (expr.span.merge part.span) expr (.named part.name) false
      return .again (member, text ++ "." ++ part.name)
    else return .done (.component expr, text)

/-- The name of an element, with its text. -/
def elementName : Parser (JsxName × String) := do
  let first ← expectIdentifier
  if ← eat .colon then
    let part ← expectIdentifier
    let text := first.name ++ ":" ++ part.name
    return (.tag text, text)
  else if ← check .dot then dottedName first
  else if isHostTag first.name then return (.tag first.name, first.name)
  else return (.component (.ident first.span first.name), first.name)

/-- An expression in braces, after the opening one. -/
def container : Parser Expr := do
  let e ← allowIn g.expression
  let _ ← expect .rBrace
  return e

def attributeValue : Parser JsxContent := do
  match ← peekKind with
  | .string text =>
    let _ ← advance
    return .text text
  | .punct .lBrace =>
    let start := (← advance).span
    if ← check .rBrace then
      failAt .unexpectedToken "attribute value must be a non-empty expression"
        (start.merge (← here))
    else return .expr (← g.container)
  | .punct .jsxLt => return .element (← g.element)
  | _ => unexpected fun got => s!"expected attribute value, got '{got}'"

def namedAttribute : Parser JsxAttr := do
  let first ← expectIdentifier
  let name ←
    if ← eat .colon then
      let part ← expectIdentifier
      pure (first.name ++ ":" ++ part.name)
    else pure first.name
  let value ← if ← eat .eq then some <$> g.attributeValue else pure none
  return .named name value (← spanFrom first.span)

/-- Attributes up to the end of the opening tag. -/
def attributes : Parser (List JsxAttr) :=
  loop [] fun (acc : List JsxAttr) => do
    match ← peekKind with
    | .punct .lBrace =>
      let start := (← advance).span
      if ← eat .dotDotDot then return .again (.spread (← g.container) :: acc)
      else failAt .unexpectedToken "expected '...' in attribute spread" start
    | .identifier _ => return .again ((← g.namedAttribute) :: acc)
    | .punct .greater | .punct .jsxSelfClose => return .done acc.reverse
    | .eof => failHere .unclosedElement "unexpected end of file in element tag"
    | _ => unexpected fun got => s!"unexpected '{got}' in element tag"

/-- Children up to and including the `</` of the closing tag. An empty container, or one with only a
comment, is no child. -/
def children (start : Span) (name : String) : Parser (List JsxContent) :=
  loop [] fun (acc : List JsxContent) => do
    match ← peekKind with
    | .jsxText text =>
      let _ ← advance
      return .again (.text text :: acc)
    | .punct .lBrace =>
      let _ ← advance
      if ← eat .rBrace then return .again acc
      else
        let _ ← eat .dotDotDot
        return .again (.expr (← g.container) :: acc)
    | .punct .jsxLt => return .again (.element (← g.element) :: acc)
    | .punct .jsxCloseStart =>
      let _ ← advance
      return .done acc.reverse
    | .eof => failAt .unclosedElement s!"element <{name}> is never closed" start
    | _ => unexpected fun got => s!"unexpected '{got}' in element children"

/-- `<name attrs>children</name>`, `<name attrs />` or `<>children</>` -/
def elementBody : Parser JsxElement := nested do
  let start := (← expect .jsxLt).span
  if ← eat .greater then
    let children ← g.children start ""
    let _ ← expect .greater
    return .mk .fragment [] children (← spanFrom start)
  let (name, text) ← elementName
  let attrs ← g.attributes
  if ← eat .jsxSelfClose then return .mk name attrs [] (← spanFrom start)
  let _ ← expect .greater
  let children ← g.children start text
  let closeStart ← here
  let (_, closing) ← elementName
  if closing != text then
    failAt .mismatchedClosingTag s!"expected '</{text}>', found '</{closing}>'"
      (← spanFrom closeStart)
  let _ ← expect .greater
  return .mk name attrs children (← spanFrom start)

end Grammar

end TsxPreview.Parser
