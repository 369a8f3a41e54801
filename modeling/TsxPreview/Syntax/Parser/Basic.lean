import TsxPreview.Source.Diagnostic
import TsxPreview.Syntax.Basic
import TsxPreview.Token.Basic

/-!
Readers of token streams. A reader succeeds, fails with what it found reported, or gives out, for
want of fuel or in a loop that takes no token; the three are kept apart, and each hands on the state
it reached. A failed reader is left where it stopped: going back is an explicit `rewind`.
-/

namespace TsxPreview

namespace Parser

/-- What a run reads. The last token is the end of the file. -/
structure Input where
  file : SourceFile
  tokens : Array Token

/-- Where a run stands. -/
structure State where
  pos : Nat
  found : Diagnostics
  /-- How many nested constructs are open. -/
  depth : Nat
  /-- `in` is no operator: the head of a `for` is being read. -/
  noIn : Bool
  /-- The first default export of the module. -/
  defaultExport : Option Span

inductive Outcome (α : Type) where
  | parsed (value : α) (s : State)
  | failed (s : State)
  | exhausted (s : State)

/-- At most this many expressions, statements, patterns, types and elements nest. -/
def nestingLimit : Nat := 128

end Parser

/-- A reader of tokens. -/
def Parser (α : Type) : Type := Parser.Input → Parser.State → Parser.Outcome α

namespace Parser

variable {α β γ : Type}

instance : Monad Parser where
  pure a := fun _ s => .parsed a s
  bind p f := fun i s =>
    match p i s with
    | .parsed a s => f a i s
    | .failed s => .failed s
    | .exhausted s => .exhausted s

instance : Inhabited (Parser α) := ⟨fun _ s => .exhausted s⟩

/-- Failure without a report of its own. -/
def fail : Parser α := fun _ s => .failed s

def outOfFuel : Parser α := fun _ s => .exhausted s

/-- Something computed from the input and the state alone. -/
def look (f : Input → State → α) : Parser α := fun i s => .parsed (f i s) s

def update (f : State → State) : Parser Unit := fun _ s => .parsed () (f s)

/-- Failure becomes `none`; the state is the one reached. -/
def attempt (p : Parser α) : Parser (Option α) := fun i s =>
  match p i s with
  | .parsed a s => .parsed (some a) s
  | .failed s => .parsed none s
  | .exhausted s => .exhausted s

/-- Changes the state when `p` is done, whether it succeeded or failed. -/
def finally' (p : Parser α) (f : State → State) : Parser α := fun i s =>
  match p i s with
  | .parsed a s => .parsed a (f s)
  | .failed s => .failed (f s)
  | .exhausted s => .exhausted s

/-- One more round with a new accumulator, or the result. -/
inductive Round (β γ : Type) where
  | again (acc : β)
  | done (result : γ)

/-- At most so many rounds. After a round that took no token the next would be like it, so that there
is none. -/
def rounds (body : β → Parser (Round β γ)) : Nat → β → Parser γ
  | 0, _ => outOfFuel
  | fuel + 1, acc => do
    let start ← look fun _ s => s.pos
    match ← body acc with
    | .again acc =>
      if ← look fun _ s => decide (start < s.pos) then rounds body fuel acc else outOfFuel
    | .done result => pure result

/-- Repeats `body`, which takes a token in every round but the last. -/
def loop (acc : β) (body : β → Parser (Round β γ)) : Parser γ := fun i s =>
  rounds body (i.tokens.size + 2) acc i s

/-! ### The cursor -/

def Input.kindAt (i : Input) (n : Nat) : TokenKind := (i.tokens[n]?.map Token.kind).getD .eof

def Input.tokenAt (i : Input) (n : Nat) : Token := i.tokens[n]?.getD i.tokens.back!

def peek : Parser Token := look fun i s => i.tokenAt s.pos

def peekKind : Parser TokenKind := look fun i s => i.kindAt s.pos

/-- The kind of the token `n` places ahead. -/
def ahead (n : Nat) : Parser TokenKind := look fun i s => i.kindAt (s.pos + n)

/-- A line break stands before the token `n` places ahead. -/
def newlineAhead (n : Nat) : Parser Bool :=
  look fun i s => i.tokens[s.pos + n]?.any Token.newlineBefore

def here : Parser Span := look fun i s => (i.tokenAt s.pos).span

/-- The span of the token before. -/
def previous : Parser Span :=
  look fun i s => if s.pos = 0 then Span.start else (i.tokenAt (s.pos - 1)).span

/-- From the start of `start` to the end of the token before. -/
def spanFrom (start : Span) : Parser Span := return start.merge (← previous)

def seek (n : Nat) : Parser Unit := fun i s =>
  .parsed () { s with pos := min n (i.tokens.size - 1) }

/-- Takes a token. The end of the file is never taken. -/
def advance : Parser Token := fun i s =>
  .parsed (i.tokenAt s.pos) { s with pos := if s.pos + 1 < i.tokens.size then s.pos + 1 else s.pos }

def atEnd : Parser Bool := return (← peekKind).isEof

def check (p : Punct) : Parser Bool := return (← peekKind).isPunct p

def checkKeyword (k : Keyword) : Parser Bool := return (← peekKind).isKeyword k

def checkWord (name : String) : Parser Bool := return (← peekKind).isWord name

def eat (p : Punct) : Parser Bool := do
  if ← check p then
    let _ ← advance
    return true
  else return false

def eatKeyword (k : Keyword) : Parser Bool := do
  if ← checkKeyword k then
    let _ ← advance
    return true
  else return false

/-- How the bracket depth changes over a token. -/
def bracketStep (kind : TokenKind) (depth : Nat) : Nat :=
  match kind with
  | .punct .lParen | .punct .lBracket | .punct .lBrace => depth + 1
  | _ => depth

def isCloser (kind : TokenKind) : Bool :=
  kind.isPunct .rParen || kind.isPunct .rBracket || kind.isPunct .rBrace

def closeFrom (tokens : Array Token) : Nat → Nat → Nat → Option Nat
  | 0, _, _ => none
  | fuel + 1, index, depth =>
    match tokens[index]? with
    | none => none
    | some token =>
      if token.kind.isEof then none
      else if isCloser token.kind then
        if depth ≤ 1 then some (index + 1) else closeFrom tokens fuel (index + 1) (depth - 1)
      else closeFrom tokens fuel (index + 1) (bracketStep token.kind depth)

/-- The index just past the bracket that closes the one at `index`. -/
def Input.matchingClose (i : Input) (index : Nat) : Option Nat :=
  closeFrom i.tokens i.tokens.size index 0

/-- What follows the bracketed group that starts `n` places ahead. -/
def afterGroup (n : Nat) : Parser (Option TokenKind) :=
  look fun i s => (i.matchingClose (s.pos + n)).map i.kindAt

/-! ### Reports -/

def reportAt (code : ErrorCode) (message : String) (span : Span) : Parser Unit := fun i s =>
  .parsed () { s with found := s.found.push (Diagnostic.at i.file code message span none) }

def report (code : ErrorCode) (message : String) : Parser Unit := do
  reportAt code message (← here)

def failAt (code : ErrorCode) (message : String) (span : Span) : Parser α := do
  reportAt code message span
  fail

def failHere (code : ErrorCode) (message : String) : Parser α := do
  report code message
  fail

/-- Fails on the current token, which `what` does not allow. -/
def unexpected (message : String → String) : Parser α := do
  failHere .unexpectedToken (message (← peekKind).display)

/-- Fails on syntax outside the subset. -/
def unsupported (what : String) (span : Span) : Parser α :=
  failAt .unsupportedSyntax (what ++ " are not supported") span

def tooManyErrors : Parser Bool := look fun _ s => s.found.saturated

/-! ### Speculation -/

/-- A place to return to: the position and the count of diagnostics. -/
structure Checkpoint where
  pos : Nat
  total : Nat

def checkpoint : Parser Checkpoint := look fun _ s => ⟨s.pos, s.found.total⟩

/-- Returns to a place and forgets what was reported since. -/
def rewind (c : Checkpoint) : Parser Unit :=
  update fun s => { s with pos := c.pos, found := s.found.truncate c.total }

def failedSince (c : Checkpoint) : Parser Bool := look fun _ s => c.total < s.found.total

/-! ### Nesting and `in` -/

/-- Reads one level deeper, up to `nestingLimit`. -/
def nested (p : Parser α) : Parser α := do
  if (← look fun _ s => s.depth) < nestingLimit then
    update fun s => { s with depth := s.depth + 1 }
    finally' p fun s => { s with depth := s.depth - 1 }
  else failHere .nestingLimitExceeded s!"maximum nesting depth is {nestingLimit}"

/-- Reads with `in` as an operator again. -/
def allowIn (p : Parser α) : Parser α := do
  let noIn ← look fun _ s => s.noIn
  update fun s => { s with noIn := false }
  finally' p fun s => { s with noIn := noIn }

/-- Reads the head of a `for`, where `in` is no operator. -/
def forbidIn (p : Parser α) : Parser α := do
  update fun s => { s with noIn := true }
  finally' p fun s => { s with noIn := false }

/-! ### Expectations -/

def expectKind (matches' : TokenKind → Bool) (shown : String) (closer : Bool) : Parser Token := do
  let kind ← peekKind
  if matches' kind then advance
  else
    let code := if closer && kind.isEof then ErrorCode.unclosedDelimiter else .unexpectedToken
    failHere code s!"expected '{shown}', got '{kind.display}'"

def expect (p : Punct) : Parser Token :=
  expectKind (·.isPunct p) p.text (p == .rParen || p == .rBrace || p == .rBracket)

def expectKeyword (k : Keyword) : Parser Token := expectKind (·.isKeyword k) k.text false

/-- A word that is no keyword but has a meaning here. -/
def expectWord (word : String) : Parser Token := expectKind (·.isWord word) word false

def expectIdentifier : Parser Ident := do
  match ← peekKind with
  | .identifier name => return ⟨name, (← advance).span⟩
  | _ => unexpected fun got => s!"expected identifier, got '{got}'"

/-- An identifier or a keyword, as the name of a property. -/
def expectPropertyName : Parser Ident := do
  match (← peekKind).propertyName? with
  | some name => return ⟨name, (← advance).span⟩
  | none => unexpected fun got => s!"expected property name, got '{got}'"

def expectString : Parser (String × Span) := do
  match ← peekKind with
  | .string s => return (s, (← advance).span)
  | _ => unexpected fun got => s!"expected string literal, got '{got}'"

/-- A semicolon, or a place where one is implied: before a line break, a `}` or the end. -/
def semicolon : Parser Unit := do
  if ← eat .semicolon then return
  let token ← peek
  if token.kind.isEof || token.kind.isPunct .rBrace || token.newlineBefore then return
  report .unexpectedToken s!"expected ';', got '{token.kind.display}'"

/-- Items up to a closing bracket, which is left. A comma stands between two of them and may follow
the last. -/
def commaList (close : Punct) (item : Parser α) : Parser (List α) :=
  loop [] fun (acc : List α) => do
    if (← check close) || (← atEnd) then return .done acc.reverse
    let x ← item
    if ← eat .comma then return .again (x :: acc) else return .done (x :: acc).reverse

/-! ### Recovery -/

/-- Keywords that can start a statement after an error. -/
def isResumeKeyword : TokenKind → Bool
  | .keyword k =>
    k == .const || k == .let || k == .var || k == .function || k == .return || k == .if
      || k == .for || k == .while || k == .import || k == .export
  | _ => false

/-- After an error, skips to where reading can go on: past a `;`, or before a `}`, a new line or a
statement keyword. -/
def synchronize : Parser Unit := do
  let start ← look fun _ s => s.pos
  loop () fun _ => do
    let token ← peek
    let moved ← look fun _ s => decide (start < s.pos)
    if token.kind.isEof || (moved && token.newlineBefore) then return .done ()
    if token.kind.isPunct .semicolon then
      let _ ← advance
      return .done ()
    if token.kind.isPunct .rBrace || (moved && isResumeKeyword token.kind) then return .done ()
    let _ ← advance
    return .again ()

/-! ### The nonterminals -/

/-- The readers that occur inside one another. Each production is written against such a record, and
the record itself is tied together once, by recursion on fuel. -/
structure Grammar where
  statement : Parser Stmt
  assignment : Parser Expr
  /-- Binary operators of at least a given precedence. -/
  binary : Nat → Parser Expr
  unary : Parser Expr
  newExpr : Parser Expr
  pattern : Parser Pattern
  element : Parser JsxElement
  type : Parser Unit
  postfixType : Parser Unit
  primaryType : Parser Unit

end Parser

end TsxPreview
