import TsxPreview.Repair.Imports
import TsxPreview.Text.Word

/-!
Explanations that follow the code. The tail after the main export is cut when its first line reads
as prose and no further import or declaration follows.
-/

namespace TsxPreview.Repair

namespace Prose

/-- White space and then something else. -/
def spaceThen (p : Char → Bool) (cs : List Char) : Bool :=
  cs.head?.any isBlank && (trimBlankStart cs).head?.any p

/-- One to six `#` and a title. -/
def isHeading (line : List Char) : Bool :=
  let marks := (line.takeWhile (· == '#')).length
  1 ≤ marks && marks ≤ 6 && spaceThen (fun _ => true) (line.drop marks)

def startsItem (c : Char) : Bool := c.isAlpha || c == '*' || c == '_' || c == '`'

/-- A number with a point, or a bullet, and a word. -/
def isListItem (line : List Char) : Bool :=
  match line with
  | '-' :: rest | '*' :: rest | '+' :: rest => spaceThen startsItem rest
  | _ =>
    match line.dropWhile isAnyDigit with
    | '.' :: rest => line.head?.any isAnyDigit && spaceThen startsItem rest
    | _ => false

def isEmphasis (line : List Char) : Bool :=
  match line with
  | '*' :: '*' :: c :: _ | '_' :: '_' :: c :: _ => !isBlank c
  | _ => false

def isWordTail (c : Char) : Bool := ('a' ≤ c && c ≤ 'z') || c == '\'' || c == '’'

/-- A capitalised word and at least two words more. -/
def isSentence (line : List Char) : Bool :=
  match line with
  | c :: rest =>
    let tail := rest.dropWhile isWordTail
    'A' ≤ c && c ≤ 'Z' && tail.head?.any isBlank && 2 ≤ (blankSeparated tail).length
  | [] => false

def isCodeChar (c : Char) : Bool := c == '\x7b' || c == '\x7d' || c == '=' || c == ';'

def isProse (line : List Char) : Bool :=
  isHeading line || isListItem line || isEmphasis line
    || (isSentence line && !line.any isCodeChar)

/-- The default export, or the last export if there is none. -/
def mainExport? (s : Scan) (chunks : List Chunk) : Option Chunk :=
  let exports := chunks.filter fun c => s.isKeyword c.first .export
  (exports.find? (isDefaultExport s)).or exports.getLast?

/-- A statement without a semicolon ends before the token at `i`. -/
def breaksBefore (s : Scan) (i : Nat) : Bool :=
  let before := s.kind (i - 1)
  s.newlineBefore i && (before.endsExpression || before.isPunct .rBrace)

/-- The last token of an export. -/
def exportEnd? (s : Scan) (c : Chunk) : Option Nat :=
  match s.functionBody? c with
  | some start => do
    let close ← s.matching? start
    return if s.isPunct (close + 1) .semicolon then close + 1 else close
  | none =>
    match Scan.findIn (c.first + 1) c.last fun i =>
      s.nesting i == 0 && (s.isPunct i .semicolon || breaksBefore s i) with
    | some i => some (if s.isPunct i .semicolon then i else i - 1)
    | none => some c.last

/-- A chunk that cutting must not lose. -/
def isCode (s : Scan) (c : Chunk) : Bool :=
  (s.kind c.first).isDeclarationKeyword || s.isKeyword c.first .import
    || s.isKeyword c.first .export

end Prose

/-- The text that stays, and the tail that was cut. -/
structure ProseRemoval where
  text : String
  prose : String

/-- Cuts the explanation after the main export; `none` if there is none to cut. -/
def stripProse (text : String) : Option ProseRemoval := do
  let s := Scan.ofText text
  let chunks := s.chunks
  let last ← Prose.exportEnd? s (← Prose.mainExport? s chunks)
  let cut := s.hi last
  let cs := text.toList
  let tail := dropBytes cut cs
  let prose := trimBlankStart tail
  guard (!prose.isEmpty)
  let start := cut + byteLength (tail.takeWhile isBlank)
  guard (Prose.isProse (trimBlankEnd (prose.takeWhile (· != '\n'))))
  guard (!chunks.any fun c => start ≤ s.lo c.first && Prose.isCode s c)
  return ⟨String.ofList (takeBytes cut cs ++ ['\n']), String.ofList tail⟩

end TsxPreview.Repair
