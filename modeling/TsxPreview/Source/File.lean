/-!
Named source texts, the places in them, their lines, and numbered excerpts of them.
-/

namespace TsxPreview

/-! ### Places -/

/-- A half-open range of byte offsets. `line` and `col` locate `lo`; both count from one, columns in
characters. -/
structure Span where
  lo : Nat
  hi : Nat
  line : Nat
  col : Nat
  deriving DecidableEq, Inhabited

namespace Span

/-- The empty span at one place. -/
def point (lo line col : Nat) : Span := ⟨lo, lo, line, col⟩

/-- The empty span at the start of a text. -/
def start : Span := ⟨0, 0, 1, 1⟩

/-- The least span that covers both; it starts where the earlier one does. -/
def merge (a b : Span) : Span :=
  let first := if b.lo < a.lo then b else a
  ⟨min a.lo b.lo, max a.hi b.hi, first.line, first.col⟩

def size (s : Span) : Nat := s.hi - s.lo

def isEmpty (s : Span) : Bool := s.hi ≤ s.lo

/-- `line:column`. -/
def display (s : Span) : String := s!"{s.line}:{s.col}"

end Span

/-! ### Texts -/

structure SourceFile where
  name : String
  text : String
  deriving DecidableEq, Inhabited

namespace SourceFile

/-- The characters up to each line feed; never empty. -/
def splitLines : List Char → List (List Char)
  | [] => [[]]
  | '\n' :: rest => [] :: splitLines rest
  | c :: rest =>
    match splitLines rest with
    | [] => [[c]]
    | line :: lines => (c :: line) :: lines

/-- Drops every `x` at the end. -/
def trimEnd (x : Char) (cs : List Char) : List Char :=
  (cs.reverse.dropWhile (· == x)).reverse

/-- Every line, without the carriage returns at its end. -/
def lines (file : SourceFile) : List String :=
  (splitLines file.text.toList).map fun line => String.ofList (trimEnd '\r' line)

/-- The line with a number that counts from one. -/
def line? (file : SourceFile) (number : Nat) : Option String :=
  if number = 0 then none else file.lines[number - 1]?

def lineCount (file : SourceFile) : Nat := file.lines.length

/-- Line and column reached after `budget` bytes from a given line and column. -/
def walk : List Char → (budget line col : Nat) → Nat × Nat
  | [], _, line, col => (line, col)
  | c :: rest, budget, line, col =>
    if budget < c.utf8Size then (line, col)
    else if c = '\n' then walk rest (budget - 1) (line + 1) 1
    else walk rest (budget - c.utf8Size) line (col + 1)

/-- Line and column of a byte offset; offsets past the end count as the end. -/
def lineCol (file : SourceFile) (offset : Nat) : Nat × Nat := walk file.text.toList offset 1 1

/-- Splits after `budget` bytes; `none` inside a character or past the end. -/
def splitAtByte : List Char → Nat → Option (List Char × List Char)
  | cs, 0 => some ([], cs)
  | [], _ + 1 => none
  | c :: rest, n + 1 =>
    if n + 1 < c.utf8Size then none
    else (splitAtByte rest (n + 1 - c.utf8Size)).map fun (taken, left) => (c :: taken, left)

/-- The text of a span, empty where the span does not fit the text. -/
def slice (file : SourceFile) (span : Span) : String :=
  if span.hi < span.lo then "" else
    match splitAtByte file.text.toList span.lo with
    | none => ""
    | some (_, rest) =>
      match splitAtByte rest (span.hi - span.lo) with
      | none => ""
      | some (taken, _) => String.ofList taken

/-- The numbered lines from `line - context` to `line + context` that exist. -/
def excerpt (file : SourceFile) (line context : Nat) : List (Nat × String) :=
  let first := max (line - context) 1
  (file.lines.zipIdx 1).filterMap fun (text, n) =>
    if first ≤ n ∧ n ≤ line + context then some (n, text) else none

end SourceFile

/-- Numbered source lines around the place of an error. -/
structure SourceExcerpt where
  path : String
  line : Nat
  lines : List (Nat × String)
  deriving DecidableEq, Inhabited

namespace SourceExcerpt

/-- Lines of context on each side. -/
def context : Nat := 2

def around (file : SourceFile) (line : Nat) : SourceExcerpt :=
  ⟨file.name, line, file.excerpt line context⟩

/-- Right-aligned to four places. -/
def padNumber (n : Nat) : String :=
  let digits := toString n
  String.ofList (List.replicate (4 - digits.length) ' ') ++ digits

/-- One row per line, the offending one marked. -/
def display (e : SourceExcerpt) : String :=
  String.join (e.lines.map fun (n, text) =>
    (if n = e.line then ">" else " ") ++ " " ++ padNumber n ++ " | " ++ text ++ "\n")

end SourceExcerpt

end TsxPreview
