import TsxPreview.Source.Diagnostic
import TsxPreview.Text.Basic
import TsxPreview.Token.Basic
import TsxPreview.Number.Read

/-!
Source text to tokens. A stack of modes tells code, the inside of a tag and the text between tags
apart; a `<` opens a tag when the token before it cannot end an expression. Comments and white space
are dropped, but a line break is remembered on the next token. Errors are collected up to a cap.
-/

namespace TsxPreview

/-- A place in a text: what is left, and where that starts. -/
structure Cursor where
  rest : List Char
  offset : Nat
  line : Nat
  col : Nat

namespace Cursor

def ofText (cs : List Char) : Cursor := ⟨cs, 0, 1, 1⟩

def peek? (c : Cursor) : Option Char := c.rest.head?

/-- The character `n` places ahead. -/
def ahead? (c : Cursor) (n : Nat) : Option Char := c.rest[n]?

def advance (c : Cursor) : Cursor :=
  match c.rest with
  | [] => c
  | ch :: rest =>
    if ch = '\n' then ⟨rest, c.offset + 1, c.line + 1, 1⟩
    else ⟨rest, c.offset + ch.utf8Size, c.line, c.col + 1⟩

def skip : Nat → Cursor → Cursor
  | 0, c => c
  | n + 1, c => skip n c.advance

/-- Past the longest run of characters that satisfy `p`. -/
def skipWhile (p : Char → Bool) (c : Cursor) : Cursor := c.skip (c.rest.takeWhile p).length

def spanTo (start c : Cursor) : Span := ⟨start.offset, c.offset, start.line, start.col⟩

def here (c : Cursor) : Span := Span.point c.offset c.line c.col

/-- The characters between two places of one text. -/
def textTo (start c : Cursor) : List Char := start.rest.take (start.rest.length - c.rest.length)

end Cursor

namespace Lexer

/-- Who owns the `}` that ends a stretch of code. -/
inductive Closer where
  | root
  /-- An expression container in markup. -/
  | jsx
  /-- A substitution in a template. -/
  | template
  deriving DecidableEq, Inhabited

inductive Mode where
  /-- Code, with the count of braces open in it. -/
  | code (depth : Nat) (closer : Closer)
  | tag (closing : Bool)
  /-- Between an opening tag and its closing tag. -/
  | children
  deriving DecidableEq, Inhabited

structure State where
  file : SourceFile
  cursor : Cursor
  found : Diagnostics
  /-- Innermost first. -/
  modes : List Mode
  /-- The token before can end an expression. -/
  exprEnd : Bool
  /-- An element has just closed, which ends an expression too. -/
  elementClosed : Bool
  /-- A line break was passed since the token before. -/
  sawNewline : Bool

namespace State

def ofFile (file : SourceFile) : State :=
  { file, cursor := Cursor.ofText file.text.toList, found := Diagnostics.empty
    modes := [.code 0 .root], exprEnd := false, elementClosed := false, sawNewline := false }

def mode (s : State) : Mode := s.modes.headD (.code 0 .root)

def pushMode (s : State) (m : Mode) : State := { s with modes := m :: s.modes }

/-- The outermost mode stays. -/
def popMode (s : State) : State :=
  match s.modes with
  | _ :: m :: ms => { s with modes := m :: ms }
  | _ => s

/-- Changes the count of open braces of the code that is being read. -/
def mapDepth (s : State) (f : Nat → Nat) : State :=
  match s.modes with
  | .code depth closer :: ms => { s with modes := .code (f depth) closer :: ms }
  | _ => s

def skip (s : State) (n : Nat) : State := { s with cursor := s.cursor.skip n }

def skipWhile (s : State) (p : Char → Bool) : State := { s with cursor := s.cursor.skipWhile p }

def report (s : State) (code : ErrorCode) (message : String) (span : Span)
    (suggestion : Option String) : State :=
  { s with found := s.found.push (Diagnostic.at s.file code message span suggestion) }

/-- Reports on the text from `start` to here. -/
def reportFrom (s : State) (start : Cursor) (code : ErrorCode) (message : String)
    (suggestion : Option String) : State :=
  s.report code message (start.spanTo s.cursor) suggestion

def token (s : State) (start : Cursor) (kind : TokenKind) : Token :=
  ⟨kind, start.spanTo s.cursor, false⟩

def eofToken (s : State) : Token := ⟨.eof, s.cursor.here, false⟩

end State

/-! ### Character classes -/

/-- Every character beyond ASCII counts as a letter here. -/
def isIdentStart (c : Char) : Bool := c.isAlpha || c == '_' || c == '$' || 0x80 ≤ c.toNat

def isIdentContinue (c : Char) : Bool := isIdentStart c || isDecimalDigit c

def isNumberChar (c : Char) : Bool := isDecimalDigit c || c == '_'

def isHexChar (c : Char) : Bool := isHexDigit c || c == '_'

/-! ### Trivia -/

/-- Past a block comment whose opening was just passed; `none` if it does not end. -/
def blockComment (start : Cursor) : Nat → State → State
  | 0, s => s
  | fuel + 1, s =>
    match s.cursor.rest with
    | [] =>
      s.reportFrom start .unterminatedComment "Unterminated block comment"
        (some "Close the comment with */")
    | '*' :: '/' :: _ => s.skip 2
    | '\n' :: _ => blockComment start fuel { s.skip 1 with sawNewline := true }
    | _ => blockComment start fuel (s.skip 1)

/-- Past white space and comments. -/
def skipTrivia : Nat → State → State
  | 0, s => s
  | fuel + 1, s =>
    match s.cursor.rest with
    | '\n' :: _ => skipTrivia fuel { s.skip 1 with sawNewline := true }
    | '/' :: '/' :: _ => skipTrivia fuel (s.skipWhile (· != '\n'))
    | '/' :: '*' :: rest => skipTrivia fuel (blockComment s.cursor (rest.length + 1) (s.skip 2))
    | c :: _ =>
      if c = ' ' ∨ c = '\t' ∨ c = '\r' then skipTrivia fuel (s.skip 1)
      else if 0x80 ≤ c.toNat ∧ isBlank c then
        let isBreak := c.toNat = 0x2028 ∨ c.toNat = 0x2029
        skipTrivia fuel { s.skip 1 with sawNewline := s.sawNewline || isBreak }
      else s
    | [] => s

def trivia (s : State) : State := skipTrivia (s.cursor.rest.length + 1) s

/-! ### Escapes -/

/-- Between `least` and `most` hexadecimal digits, as many as there are. -/
def hexDigits (least most : Nat) (s : State) : Option Nat × State :=
  let digits := (s.cursor.rest.take most).takeWhile isHexDigit
  let value := if digits.length < least then none else readRadix 16 digits
  (value, s.skip digits.length)

/-- The character with a code, or a report that quotes the escape. -/
def escapedChar (start : Cursor) (value : Option Nat) (s : State) : Option Char × State :=
  match value.filter Nat.isValidChar with
  | some n => (some (Char.ofNat n), s)
  | none =>
    let text := String.ofList (start.textTo s.cursor)
    (none, s.reportFrom start .invalidEscape s!"Invalid escape sequence '{text}'" none)

/-- An escape, from its backslash on. `none` for a line continuation or an invalid escape. -/
def escape (s : State) : Option Char × State :=
  let start := s.cursor
  match start.rest.drop 1 with
  | [] =>
    let s := s.skip 1
    (none, s.reportFrom start .invalidEscape "Unexpected end of file in escape sequence" none)
  | c :: rest =>
    let s := s.skip 2
    match c with
    | 'n' => (some '\n', s)
    | 't' => (some '\t', s)
    | 'r' => (some '\r', s)
    | 'b' => (some '\x08', s)
    | 'f' => (some '\x0c', s)
    | 'v' => (some '\x0b', s)
    | '\n' => (none, s)
    | '\r' => (none, if rest.head? = some '\n' then s.skip 1 else s)
    | '0' => (if rest.head?.any isDecimalDigit then some '0' else some '\x00', s)
    | 'x' =>
      let (value, s) := hexDigits 2 2 s
      escapedChar start value s
    | 'u' =>
      if rest.head? = some '\x7b' then
        let (value, s) := hexDigits 1 6 (s.skip 1)
        if s.cursor.peek? = some '\x7d' then escapedChar start value (s.skip 1)
        else escapedChar start none s
      else
        let (value, s) := hexDigits 4 4 s
        escapedChar start value s
    | c => (some c, s)

/-! ### Literals -/

/-- A quoted text after its opening quote; `read` holds what was read, last first. -/
def quoted (start : Cursor) (quote : Char) : Nat → List Char → State → TokenKind × State
  | 0, read, s => (.string (String.ofList read.reverse), s)
  | fuel + 1, read, s =>
    match s.cursor.rest with
    | [] => unterminated read s
    | c :: _ =>
      if c = '\n' then unterminated read s
      else if c = quote then (.string (String.ofList read.reverse), s.skip 1)
      else if c = '\\' then
        match escape s with
        | (some e, s) => quoted start quote fuel (e :: read) s
        | (none, s) => quoted start quote fuel read s
      else quoted start quote fuel (c :: read) (s.skip 1)
where
  unterminated (read : List Char) (s : State) : TokenKind × State :=
    (.string (String.ofList read.reverse),
      s.reportFrom start .unterminatedString "Unterminated string literal"
        (some s!"Close the string with {quote}"))

/-- Template text, after the backtick (`head`) or after the brace that ends a substitution. Line
breaks are read as line feeds. -/
def template (start : Cursor) (head : Bool) : Nat → List Char → State → TokenKind × State
  | 0, read, s => (last read, s)
  | fuel + 1, read, s =>
    match s.cursor.rest with
    | [] =>
      (last read, s.reportFrom start .unterminatedTemplate "Unterminated template literal"
        (some "Close the template with `"))
    | '`' :: _ => (last read, s.skip 1)
    | '$' :: '\x7b' :: _ =>
      let text := String.ofList read.reverse
      (if head then .templateHead text else .templateMiddle text,
        (s.skip 2).pushMode (.code 0 .template))
    | '\\' :: _ =>
      match escape s with
      | (some e, s) => template start head fuel (e :: read) s
      | (none, s) => template start head fuel read s
    | '\r' :: rest =>
      template start head fuel (if rest.head? = some '\n' then read else '\n' :: read) (s.skip 1)
    | c :: _ => template start head fuel (c :: read) (s.skip 1)
where
  last (read : List Char) : TokenKind :=
    let text := String.ofList read.reverse
    if head then .templateWhole text else .templateTail text

/-- The text of an attribute has no escapes and may span lines. -/
def attributeText (start : Cursor) (quote : Char) (s : State) : TokenKind × State :=
  let text := s.cursor.rest.takeWhile (· != quote)
  let s := s.skip text.length
  let kind := TokenKind.string (String.ofList text)
  if s.cursor.rest.isEmpty then
    (kind, s.reportFrom start .unterminatedString "Unterminated attribute string" none)
  else (kind, s.skip 1)

/-- The radix that `0x`, `0o` or `0b` announces. -/
def radixOf? : Char → Option Nat
  | 'x' | 'X' => some 16
  | 'o' | 'O' => some 8
  | 'b' | 'B' => some 2
  | _ => none

def radixNumber (start : Cursor) (radix : Nat) (s : State) : TokenKind × State :=
  let digits := ((s.skip 2).cursor.rest.takeWhile isHexChar)
  let s := s.skip (2 + digits.length)
  match (readRadix radix (digits.filter (· != '_'))).filter (· < Nat.pow 2 64) with
  | some n => (.number (Binary64.ofNat n), s)
  | none =>
    let text := String.ofList (start.textTo s.cursor)
    (.number 0,
      s.reportFrom start .unexpectedCharacter s!"Invalid number literal '{text}'" none)

/-- Past an exponent, if one with digits stands here. -/
def skipExponent (s : State) : State :=
  match s.cursor.rest with
  | e :: rest =>
    if e = 'e' ∨ e = 'E' then
      let sign := if rest.head? = some '+' ∨ rest.head? = some '-' then 1 else 0
      if rest[sign]?.any isDecimalDigit then (s.skip (1 + sign)).skipWhile isNumberChar else s
    else s
  | [] => s

def number (s : State) : TokenKind × State :=
  let start := s.cursor
  match if s.cursor.peek? = some '0' then (s.cursor.ahead? 1).bind radixOf? else none with
  | some radix => radixNumber start radix s
  | none =>
    let s := s.skipWhile isNumberChar
    let s := if s.cursor.peek? = some '.' ∧ s.cursor.ahead? 1 ≠ some '.'
      then (s.skip 1).skipWhile isNumberChar else s
    let s := skipExponent s
    let text := (start.textTo s.cursor).filter (· != '_')
    (.number ((readDecimal text).getD 0), s)

/-- A word. Inside a tag `-` continues it and reserved words are plain names. -/
def word (inTag : Bool) (s : State) : TokenKind × State :=
  let name := s.cursor.rest.takeWhile fun c => isIdentContinue c || (inTag && c == '-')
  let text := String.ofList name
  let kind := match if inTag then none else Keyword.ofText? text with
    | some k => TokenKind.keyword k
    | none => .identifier text
  (kind, s.skip name.length)

/-! ### Code -/

/-- The longest punctuator at the head of a text, with its length. Braces, `<` and quotes are read
elsewhere. -/
def punctuator? : List Char → Option (Punct × Nat)
  | '>' :: '=' :: _ => some (.greaterEq, 2)
  | '>' :: _ => some (.greater, 1)
  | '=' :: '=' :: '=' :: _ => some (.eqEqEq, 3)
  | '=' :: '=' :: _ => some (.eqEq, 2)
  | '=' :: '>' :: _ => some (.arrow, 2)
  | '=' :: _ => some (.eq, 1)
  | '!' :: '=' :: '=' :: _ => some (.bangEqEq, 3)
  | '!' :: '=' :: _ => some (.bangEq, 2)
  | '!' :: _ => some (.bang, 1)
  | '+' :: '+' :: _ => some (.plusPlus, 2)
  | '+' :: '=' :: _ => some (.plusEq, 2)
  | '+' :: _ => some (.plus, 1)
  | '-' :: '-' :: _ => some (.minusMinus, 2)
  | '-' :: '=' :: _ => some (.minusEq, 2)
  | '-' :: _ => some (.minus, 1)
  | '*' :: '*' :: _ => some (.starStar, 2)
  | '*' :: '=' :: _ => some (.starEq, 2)
  | '*' :: _ => some (.star, 1)
  | '/' :: '=' :: _ => some (.slashEq, 2)
  | '/' :: _ => some (.slash, 1)
  | '%' :: '=' :: _ => some (.percentEq, 2)
  | '%' :: _ => some (.percent, 1)
  | '&' :: '&' :: '=' :: _ => some (.ampAmpEq, 3)
  | '&' :: '&' :: _ => some (.ampAmp, 2)
  | '&' :: _ => some (.amp, 1)
  | '|' :: '|' :: '=' :: _ => some (.pipePipeEq, 3)
  | '|' :: '|' :: _ => some (.pipePipe, 2)
  | '|' :: _ => some (.pipe, 1)
  | '?' :: '?' :: '=' :: _ => some (.questionQuestionEq, 3)
  | '?' :: '?' :: _ => some (.questionQuestion, 2)
  -- `a?.5:1` is a conditional
  | '?' :: '.' :: rest =>
    if rest.head?.any isDecimalDigit then some (.question, 1) else some (.questionDot, 2)
  | '?' :: _ => some (.question, 1)
  | '.' :: '.' :: '.' :: _ => some (.dotDotDot, 3)
  | '.' :: _ => some (.dot, 1)
  | '(' :: _ => some (.lParen, 1)
  | ')' :: _ => some (.rParen, 1)
  | '[' :: _ => some (.lBracket, 1)
  | ']' :: _ => some (.rBracket, 1)
  | ',' :: _ => some (.comma, 1)
  | ';' :: _ => some (.semicolon, 1)
  | ':' :: _ => some (.colon, 1)
  | _ => none

/-- A `<` in code: a comparison after an expression, a tag elsewhere. -/
def lessThan (s : State) : TokenKind × State :=
  let next := s.cursor.ahead? 1
  if !s.exprEnd && next.any fun c => isIdentStart c || c == '>' then
    (.punct .jsxLt, (s.skip 1).pushMode (.tag false))
  else if next = some '=' then (.punct .lessEq, s.skip 2)
  else (.punct .less, s.skip 1)

/-- A closing brace in code: the end of a nested block, of a container or of a substitution. -/
def closeBrace (s : State) : TokenKind × State :=
  let start := s.cursor
  match s.mode with
  | .code 0 .jsx => (.punct .rBrace, (s.skip 1).popMode)
  | .code 0 .template =>
    let s := (s.skip 1).popMode
    template start false (s.cursor.rest.length + 1) [] s
  | _ => (.punct .rBrace, (s.skip 1).mapDepth (· - 1))

/-- One token of code that starts with `c`; `none` if none does. -/
def codeToken? (c : Char) (s : State) : Option (TokenKind × State) :=
  let start := s.cursor
  let size := start.rest.length
  if isIdentStart c then some (word false s)
  else if isDecimalDigit c || (c == '.' && (start.ahead? 1).any isDecimalDigit) then some (number s)
  else match c with
    | '"' | '\'' => some (quoted start c size [] (s.skip 1))
    | '`' => some (template start true size [] (s.skip 1))
    | '<' => some (lessThan s)
    | '\x7b' => some (.punct .lBrace, (s.skip 1).mapDepth (· + 1))
    | '\x7d' => some (closeBrace s)
    | _ => (punctuator? start.rest).map fun (p, n) => (.punct p, s.skip n)

/-! ### Tags and the text between them -/

/-- The `>` that ends a tag. The end of a closing tag also ends the children of its element. -/
def tagEnd (closing : Bool) (s : State) : State :=
  let s := (s.skip 1).popMode
  if closing then
    let s := if s.mode = .children then s.popMode else s
    { s with elementClosed := true }
  else s.pushMode .children

/-- One token inside a tag that starts with `c`; `none` if none does. -/
def tagToken? (closing : Bool) (c : Char) (s : State) : Option (TokenKind × State) :=
  let start := s.cursor
  if isIdentStart c then some (word true s)
  else match c with
    | '"' | '\'' => some (attributeText start c (s.skip 1))
    | '\x7b' => some (.punct .lBrace, (s.skip 1).pushMode (.code 0 .jsx))
    | '>' => some (.punct .greater, tagEnd closing s)
    | '/' =>
      if start.ahead? 1 = some '>' then
        some (.punct .jsxSelfClose, { (s.skip 2).popMode with elementClosed := true })
      else none
    -- an element that is itself the value of an attribute
    | '<' => some (.punct .jsxLt, (s.skip 1).pushMode (.tag false))
    | '=' => some (.punct .eq, s.skip 1)
    | '.' => some (.punct .dot, s.skip 1)
    | ':' => some (.punct .colon, s.skip 1)
    | _ => none

def childToken (s : State) : TokenKind × State :=
  match s.cursor.rest with
  | '\x7b' :: _ => (.punct .lBrace, (s.skip 1).pushMode (.code 0 .jsx))
  | '<' :: '/' :: _ => (.punct .jsxCloseStart, (s.skip 2).pushMode (.tag true))
  | '<' :: _ => (.punct .jsxLt, (s.skip 1).pushMode (.tag false))
  | cs =>
    let text := cs.takeWhile fun c => c != '\x7b' && c != '<'
    (.jsxText (String.ofList text), s.skip text.length)

/-! ### The token stream -/

/-- The next token by `scan`, past trivia. A character that starts no token is reported and
skipped. -/
def next (scan : Char → State → Option (TokenKind × State)) (place : String) :
    Nat → State → Token × State
  | 0, s => (s.eofToken, s)
  | fuel + 1, s =>
    let s := trivia s
    match s.cursor.rest with
    | [] => (s.eofToken, s)
    | c :: _ =>
      if s.found.saturated then (s.eofToken, s) else
        let start := s.cursor
        match scan c s with
        | some (kind, s) => (s.token start kind, s)
        | none =>
          let s := s.skip 1
          next scan place fuel
            (s.reportFrom start .unexpectedCharacter s!"Unexpected character '{c}'{place}" none)

/-- The next token in the current mode. -/
def step (s : State) : Token × State :=
  let fuel := s.cursor.rest.length + 1
  match s.mode with
  | .code _ _ => next codeToken? "" fuel s
  | .tag closing => next (tagToken? closing) " in tag" fuel s
  | .children =>
    if s.cursor.rest.isEmpty then (s.eofToken, s) else
      let start := s.cursor
      let (kind, s) := childToken s
      (s.token start kind, s)

/-- Hands the remembered line break to the token and notes what it means for a following `<`. -/
def settle (token : Token) (s : State) : Token × State :=
  ({ token with newlineBefore := s.sawNewline },
    { s with
      sawNewline := false, elementClosed := false
      exprEnd := token.kind.endsExpression || s.elementClosed })

/-- Tokens up to and including the end of the file. -/
def run : Nat → State → List Token × State
  | 0, s => ([s.eofToken], s)
  | fuel + 1, s =>
    if s.found.saturated then ([s.eofToken], s) else
      let (token, s) := step s
      let (token, s) := settle token s
      if token.kind.isEof then ([token], s) else
        let (tokens, s) := run fuel s
        (token :: tokens, s)

end Lexer

/-- The tokens of a text, closed by exactly one `eof`, and what was wrong with it. -/
structure TokenStream where
  tokens : List Token
  diagnostics : Diagnostics

def TokenStream.ofFile (file : SourceFile) : TokenStream :=
  let s := Lexer.State.ofFile file
  let (tokens, s) := Lexer.run (s.cursor.rest.length + 2) s
  ⟨tokens, s.found⟩

end TsxPreview
