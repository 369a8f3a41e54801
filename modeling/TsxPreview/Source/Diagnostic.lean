import TsxPreview.Source.File

/-!
What is wrong with a source text: coded diagnostics, and the capped list that a run collects.
-/

namespace TsxPreview

inductive ErrorCode where
  | unexpectedCharacter
  | unterminatedString
  | unterminatedComment
  | unterminatedTemplate
  | invalidEscape
  | unexpectedToken
  | unclosedDelimiter
  | invalidAssignmentTarget
  | nestingLimitExceeded
  | unclosedElement
  | mismatchedClosingTag
  | unsupportedSyntax
  | duplicateDefaultExport
  deriving DecidableEq, Inhabited

/-- From 100: lexical; from 150: grammar; from 200: markup; from 250: outside the subset. -/
def ErrorCode.number : ErrorCode → Nat
  | unexpectedCharacter => 100
  | unterminatedString => 101
  | unterminatedComment => 102
  | unterminatedTemplate => 103
  | invalidEscape => 104
  | unexpectedToken => 150
  | unclosedDelimiter => 151
  | invalidAssignmentTarget => 152
  | nestingLimitExceeded => 153
  | unclosedElement => 200
  | mismatchedClosingTag => 201
  | unsupportedSyntax => 250
  | duplicateDefaultExport => 251

structure Diagnostic where
  file : String
  code : ErrorCode
  message : String
  span : Span
  sourceLine : String
  suggestion : Option String
  deriving DecidableEq, Inhabited

/-- A diagnostic that quotes the line its span starts on. -/
def Diagnostic.at (file : SourceFile) (code : ErrorCode) (message : String) (span : Span)
    (suggestion : Option String) : Diagnostic :=
  { file := file.name, code, message, span, suggestion
    sourceLine := (file.line? span.line).getD "" }

/-- `line:column: E<code> message`. -/
def Diagnostic.display (d : Diagnostic) : String :=
  s!"{d.span.display}: E{d.code.number} {d.message}"

/-- Diagnostics in the order they were found. Only the first `Diagnostics.cap` are kept, but all are
counted. -/
structure Diagnostics where
  errors : List Diagnostic
  total : Nat
  deriving DecidableEq, Inhabited

namespace Diagnostics

/-- The most diagnostics that are kept. -/
def cap : Nat := 20

def empty : Diagnostics := ⟨[], 0⟩

def hasErrors (d : Diagnostics) : Bool := 0 < d.total

/-- Runs stop once this many were found. -/
def saturated (d : Diagnostics) : Bool := cap ≤ d.total

def push (d : Diagnostics) (e : Diagnostic) : Diagnostics :=
  ⟨if d.errors.length < cap then d.errors ++ [e] else d.errors, d.total + 1⟩

/-- Adds all of `other`, the ones it counted but did not keep included. -/
def extend (d other : Diagnostics) : Diagnostics :=
  let pushed := other.errors.foldl push d
  { pushed with total := pushed.total + (other.total - other.errors.length) }

/-- Forgets what was found after the first `mark`. -/
def truncate (d : Diagnostics) (mark : Nat) : Diagnostics :=
  if mark < d.total then ⟨d.errors.take mark, mark⟩ else d

def first? (d : Diagnostics) : Option Diagnostic := d.errors.head?

end Diagnostics

end TsxPreview
