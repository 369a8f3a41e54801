import TsxPreview.Text.Basic
import TsxPreview.Token.Lexer

/-!
The tokens of a text with the brackets open before each. Every structural question of the repairs
is answered from here, so the contents of strings, templates and markup text never count. What they
change is ranges of the text.
-/

namespace TsxPreview

/-! ### Edits -/

/-- New text for the bytes from `lo` up to `hi`. -/
structure Edit where
  lo : Nat
  hi : Nat
  text : List Char
  deriving DecidableEq, Inhabited

namespace Edit

def remove (lo hi : Nat) : Edit := ⟨lo, hi, []⟩

def insertAt (offset : Nat) (text : List Char) : Edit := ⟨offset, offset, text⟩

def le (a b : Edit) : Bool := a.lo < b.lo || (a.lo == b.lo && a.hi ≤ b.hi)

/-- Applies edits in order to what is left of a text after its first `cursor` bytes. An edit that
starts before the cursor is dropped. -/
def applyFrom : (cursor : Nat) → List Char → List Edit → List Char
  | _, rest, [] => rest
  | cursor, rest, e :: edits =>
    if e.lo < cursor ∨ cursor + byteLength rest < e.hi then applyFrom cursor rest edits
    else
      takeBytes (e.lo - cursor) rest ++ e.text
        ++ applyFrom e.hi (dropBytes (e.hi - cursor) rest) edits

/-- Of edits that overlap the first one counts. -/
def applyAll (text : List Char) (edits : List Edit) : List Char :=
  applyFrom 0 text (edits.mergeSort le)

/-- Widens a range to whole lines when nothing else stands on them. -/
def wholeLines (text : List Char) (lo hi : Nat) : Nat × Nat :=
  let before := (takeBytes lo text).reverse.takeWhile (· != '\n')
  let after := (dropBytes hi text).takeWhile (· != '\n')
  if before.all isBlank && after.all isBlank then
    let stop := hi + byteLength after
    (lo - byteLength before, if stop < byteLength text then stop + 1 else stop)
  else (lo, hi)

/-- Removes a range, with its lines when nothing else stands on them. -/
def removeLines (text : List Char) (lo hi : Nat) : Edit :=
  let (lo, hi) := wholeLines text lo hi
  remove lo hi

end Edit

/-! ### Tokens -/

/-- A run of tokens that forms one top-level statement; `last` belongs to it. -/
structure Chunk where
  first : Nat
  last : Nat
  deriving DecidableEq, Inhabited

structure Scan where
  tokens : Array Token
  /-- Braces open before each token. -/
  braceDepths : Array Nat
  /-- Brackets of any kind open before each token. -/
  nestings : Array Nat

namespace Scan

def isOpener (k : TokenKind) : Bool := k.isPunct .lBrace || k.isPunct .lParen || k.isPunct .lBracket

def isCloser (k : TokenKind) : Bool := k.isPunct .rBrace || k.isPunct .rParen || k.isPunct .rBracket

/-- The depths before each token, where `up` opens and `down` closes. A closer counts as outside. -/
def depths (up down : TokenKind → Bool) : Nat → List Token → List Nat
  | _, [] => []
  | depth, t :: rest =>
    let before := if down t.kind then depth - 1 else depth
    before :: depths up down (if up t.kind then before + 1 else before) rest

def ofTokens (tokens : List Token) : Scan :=
  { tokens := tokens.toArray
    braceDepths := (depths (·.isPunct .lBrace) (·.isPunct .rBrace) 0 tokens).toArray
    nestings := (depths isOpener isCloser 0 tokens).toArray }

def ofText (text : String) : Scan :=
  ofTokens ((TokenStream.ofFile ⟨"<sanitize>", text⟩).tokens.filter fun t => !t.kind.isEof)

def size (s : Scan) : Nat := s.tokens.size

def kind (s : Scan) (i : Nat) : TokenKind := (s.tokens[i]?.map Token.kind).getD .eof

def isPunct (s : Scan) (i : Nat) (p : Punct) : Bool := (s.kind i).isPunct p

def isKeyword (s : Scan) (i : Nat) (k : Keyword) : Bool := (s.kind i).isKeyword k

def ident? (s : Scan) (i : Nat) : Option String :=
  match s.kind i with
  | .identifier name => some name
  | _ => none

def string? (s : Scan) (i : Nat) : Option String :=
  match s.kind i with
  | .string text => some text
  | _ => none

def newlineBefore (s : Scan) (i : Nat) : Bool := s.tokens[i]?.any Token.newlineBefore

/-- The byte at which a token starts. -/
def lo (s : Scan) (i : Nat) : Nat := (s.tokens[i]?.map fun t => t.span.lo).getD 0

/-- The byte just past a token. -/
def hi (s : Scan) (i : Nat) : Nat := (s.tokens[i]?.map fun t => t.span.hi).getD 0

def braceDepth (s : Scan) (i : Nat) : Nat := (s.braceDepths[i]?).getD 0

def nesting (s : Scan) (i : Nat) : Nat := (s.nestings[i]?).getD 0

/-- The first index from `first` to `last`, both included, that satisfies `p`. -/
def findIn (first last : Nat) (p : Nat → Bool) : Option Nat :=
  (List.range' first (last + 1 - first)).find? p

def anyIn (first last : Nat) (p : Nat → Bool) : Bool :=
  (List.range' first (last + 1 - first)).any p

/-- The last index below `i` that satisfies `p`. -/
def findBelow (p : Nat → Bool) : Nat → Option Nat
  | 0 => none
  | i + 1 => if p i then some i else findBelow p i

def closerOf? (k : TokenKind) : Option Punct :=
  match k with
  | .punct .lBrace => some .rBrace
  | .punct .lParen => some .rParen
  | .punct .lBracket => some .rBracket
  | _ => none

/-- The bracket that closes the one at `i`. -/
def matching? (s : Scan) (i : Nat) : Option Nat := do
  let closer ← closerOf? (s.kind i)
  let level := s.nesting i
  findIn (i + 1) (s.size - 1) fun j => s.nesting j == level && s.isPunct j closer

/-- The bracket that the closer at `i` belongs to. -/
def opening? (s : Scan) (i : Nat) : Option Nat :=
  if isCloser (s.kind i) then
    let level := s.nesting i
    findBelow (fun j => s.nesting j == level) i
  else none

/-- The innermost bracket around the token at `i`. -/
def enclosing? (s : Scan) (i : Nat) : Option Nat :=
  match s.nesting i with
  | 0 => none
  | level + 1 => findBelow (fun j => s.nesting j == level) i

/-- The `>` that closes a list of type arguments, from index `i` on with `depth` open. -/
def angleFrom (s : Scan) : Nat → Nat → Nat → Option Nat
  | 0, _, _ => none
  | fuel + 1, i, depth =>
    match s.kind i with
    | .punct .less => angleFrom s fuel (i + 1) (depth + 1)
    | .punct .greater => if depth ≤ 1 then some i else angleFrom s fuel (i + 1) (depth - 1)
    | .punct .semicolon | .punct .lBrace | .punct .rBrace => none
    | _ => angleFrom s fuel (i + 1) depth

def matchingAngle? (s : Scan) (i : Nat) : Option Nat := angleFrom s (s.size - i) i 0

/-! ### Statements -/

def beginsStatement (s : Scan) (i : Nat) : Bool :=
  match s.kind i with
  | .keyword k =>
    [Keyword.import, .export, .const, .let, .var, .function, .class, .if, .for, .while, .switch,
      .try, .return, .throw].contains k
  | .identifier word =>
    (word == "type" || word == "interface" || word == "declare") && (s.ident? (i + 1)).isSome
  | _ => false

/-- A statement starts at the first token, after a top-level `;`, or at a word that begins
statements on a new line or after a `}`. -/
def startsChunk (s : Scan) (i : Nat) : Bool :=
  s.nesting i == 0 &&
    (i == 0 || (s.isPunct (i - 1) .semicolon && s.nesting (i - 1) == 0)
      || (s.beginsStatement i && (s.newlineBefore i || s.isPunct (i - 1) .rBrace)))

/-- Chunks from their starts; the last one runs to the end. -/
def chunksOf (size : Nat) : List Nat → List Chunk
  | [] => []
  | [first] => [⟨first, size - 1⟩]
  | first :: next :: rest => ⟨first, next - 1⟩ :: chunksOf size (next :: rest)

def chunks (s : Scan) : List Chunk := chunksOf s.size ((List.range s.size).filter s.startsChunk)

def chunkAt? (chunks : List Chunk) (i : Nat) : Option Chunk :=
  chunks.find? fun c => c.first ≤ i && i ≤ c.last

/-- A name occurs as an identifier between two tokens, both included. -/
def mentions (s : Scan) (name : String) (first last : Nat) : Bool :=
  anyIn first (min last (s.size - 1)) fun i => s.ident? i == some name

/-- The opening brace of the function declared at `i`, at the given level. -/
def declaredBody? (s : Scan) (level last i : Nat) : Option Nat := do
  let params ← findIn (i + 1) last fun j => s.nesting j == level && s.isPunct j .lParen
  let close ← s.matching? params
  findIn (close + 1) last fun j => s.nesting j == level && s.isPunct j .lBrace

/-- The opening brace of the body of the first function at the level of a chunk. -/
def functionBody? (s : Scan) (c : Chunk) : Option Nat := do
  let level := s.nesting c.first
  let i ← findIn c.first c.last fun j =>
    s.nesting j == level && (s.isKeyword j .function || s.isPunct j .arrow)
  if s.isKeyword i .function then s.declaredBody? level c.last i
  else if s.isPunct (i + 1) .lBrace then some (i + 1) else none

end Scan

end TsxPreview
