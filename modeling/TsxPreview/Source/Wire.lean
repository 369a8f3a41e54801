import TsxPreview.Json.Basic
import TsxPreview.Source.Diagnostic

/-!
Spans, diagnostics and excerpts as data.
-/

namespace TsxPreview

/-- An optional value as data, absent as `null`. -/
def Json.ofOption {α : Type} (f : α → Json) : Option α → Json
  | some x => f x
  | none => .null

/-- A natural number as data. -/
def Json.ofNat (n : Nat) : Json := .integer n

def Json.ofStrings (list : List String) : Json := .array (list.map .string)

/-- Members of which the absent ones are left out. -/
def Json.ofMembers (members : List (String × Option Json)) : Json :=
  .object (members.filterMap fun (k, v) => v.map fun v => (k, v))

def Span.members (s : Span) : List (String × Json) :=
  [("lo", .ofNat s.lo), ("hi", .ofNat s.hi), ("line", .ofNat s.line), ("column", .ofNat s.col)]

def Span.toJson (s : Span) : Json := .object s.members

def Diagnostic.toJson (d : Diagnostic) : Json :=
  .object ([("file", .string d.file), ("code", .ofNat d.code.number),
    ("message", .string d.message)] ++ d.span.members ++ [("source_line", .string d.sourceLine)]
    ++ (d.suggestion.map fun s => ("suggestion", Json.string s)).toList)

def SourceExcerpt.toJson (e : SourceExcerpt) : Json :=
  .object [("path", .string e.path), ("line", .ofNat e.line),
    ("lines", .array (e.lines.map fun (n, text) => .array [.ofNat n, .string text]))]

end TsxPreview
