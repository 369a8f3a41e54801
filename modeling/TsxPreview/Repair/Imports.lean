import TsxPreview.Project
import TsxPreview.Repair.Scan
import TsxPreview.Repair.Report

/-!
Imports of packages, and lists of exports. Packages are supplied to the program otherwise, so their
imports go and the names they bound are kept aside. The entry has only its default export, so export
lists go too, except that `export { X as default }` becomes `export default X;`.
-/

namespace TsxPreview.Repair

/-- The text without external imports, and what was removed. -/
structure ImportRemoval where
  text : String
  bindings : List ExternalBinding
  /-- External, type-only and style sheet imports. -/
  imports : Nat
  reexports : Nat
  defaultReexport : Option String

def ImportRemoval.fixes (r : ImportRemoval) : List Fix :=
  (if r.imports = 0 then [] else [.removedImports r.imports])
    ++ (if r.reexports = 0 then [] else [.removedReexports r.reexports])
    ++ (r.defaultReexport.map Fix.rewroteDefaultReexport).toList

namespace Imports

/-- The source of a `from "…"` clause at `i`. -/
def fromClause? (s : Scan) (i : Nat) : Option Nat :=
  if s.ident? i == some "from" && (s.string? (i + 1)).isSome then some (i + 1) else none

/-- The last token of a statement with its source at `i`: attributes and the `;` belong to it. -/
def statementEnd (s : Scan) (i : Nat) : Nat :=
  let word := s.ident? (i + 1)
  let attributes := (word == some "with" || word == some "assert") && !s.newlineBefore (i + 1)
    && s.isPunct (i + 2) .lBrace
  let last := if attributes then (s.matching? (i + 2)).getD i else i
  if s.isPunct (last + 1) .semicolon then last + 1 else last

/-- The name and the alias that one entry of a list spells; a type gives none. -/
def pairOf : List String → Option (String × String)
  | ["type", _] | ["type", _, "as", _] => none
  | [name] => some (name, name)
  | [name, "as", given] => some (name, given)
  | _ => none

/-- The words of each entry of a list between two braces. -/
def entries (s : Scan) : List Nat → List String → List (List String)
  | [], words => [words.reverse]
  | i :: rest, words =>
    if s.isPunct i .comma then words.reverse :: entries s rest []
    else match (s.kind i).propertyName? with
      | some word => entries s rest (word :: words)
      | none => entries s rest words

/-- The names and aliases of a list between two braces. -/
def pairs (s : Scan) (first last : Nat) : List (String × String) :=
  (entries s (List.range' (first + 1) (last - (first + 1))) []).filterMap pairOf

structure Statement where
  source : String
  /-- From after `import` up to `from`; none for a mere side effect. -/
  clause : Option (Nat × Nat)
  typeOnly : Bool
  last : Nat

/-- The import that a chunk holds. `import(…)` and `import.meta` are expressions. -/
def statement? (s : Scan) (c : Chunk) : Option Statement :=
  let next := c.first + 1
  if s.isPunct next .lParen || s.isPunct next .dot then none
  else match s.string? next with
    | some source => some ⟨source, none, false, statementEnd s next⟩
    | none => do
      let at' ← Scan.findIn next c.last fun i => s.nesting i == 0 && (fromClause? s i).isSome
      let source ← s.string? (at' + 1)
      -- `import type from "x"` and `import type, …` bind the name `type`
      let typeOnly := s.ident? next == some "type" && c.first + 2 < at'
        && !s.isPunct (c.first + 2) .comma
      some ⟨source, some (next, at'), typeOnly, statementEnd s (at' + 1)⟩

/-- The bindings of an import clause from token `i` up to `stop`. -/
def bindings (s : Scan) (source : String) (stop : Nat) : Nat → Nat → List ExternalBinding
  | 0, _ => []
  | fuel + 1, i =>
    if stop ≤ i then []
    else match s.kind i with
      | .identifier name => ⟨name, .default, source⟩ :: bindings s source stop fuel (i + 1)
      | .punct .star =>
        let found := if s.ident? (i + 1) == some "as"
          then ((s.ident? (i + 2)).map fun name => ExternalBinding.mk name .star source).toList
          else []
        found ++ bindings s source stop fuel (i + 3)
      | .punct .lBrace =>
        let close := (s.matching? i).getD stop
        let found := (pairs s i close).map fun (name, given) =>
          ExternalBinding.mk given (if name == "default" then .default else .named name) source
        found ++ bindings s source stop fuel (close + 1)
      | _ => bindings s source stop fuel (i + 1)

def styleSheets : List String := [".css", ".scss", ".sass", ".less"]

/-- What has been found so far. -/
structure Found where
  edits : List Edit
  bindings : List ExternalBinding
  imports : Nat
  reexports : Nat
  defaultReexport : Option String

structure Context where
  text : List Char
  scan : Scan
  aliases : List String
  hasDefault : Bool

namespace Context

variable (x : Context)

/-- Removes the tokens from `first` to `last`. -/
def removal (first last : Nat) : Edit := Edit.removeLines x.text (x.scan.lo first) (x.scan.hi last)

def dropReexport (f : Found) (first last : Nat) : Found :=
  { f with edits := f.edits ++ [x.removal first last], reexports := f.reexports + 1 }

def importChunk (c : Chunk) (f : Found) : Found :=
  match statement? x.scan c with
  | none => f
  | some i =>
    let external := (SpecifierKind.classify i.source x.aliases).isExternal
    let styles := styleSheets.any fun ending => i.source.endsWith ending
    let removed (more : List ExternalBinding) : Found :=
      { f with
        edits := f.edits ++ [x.removal c.first i.last]
        bindings := f.bindings ++ more, imports := f.imports + 1 }
    if i.typeOnly then removed []
    else match i.clause with
      | none => if external || styles then removed [] else f
      | some (start, stop) =>
        if external then removed (bindings x.scan i.source stop (stop + 1 - start) start) else f

/-- `export { … }`, with or without a source. -/
def exportList (c : Chunk) (f : Found) : Found :=
  let s := x.scan
  match s.matching? (c.first + 1) with
  | none => f
  | some close =>
    let names := pairs s (c.first + 1) close
    match fromClause? s (close + 1) with
    | some source =>
      -- `export { default } from "./App"` is the default export of the entry
      if names.any fun (_, given) => given == "default" then f
      else x.dropReexport f c.first (statementEnd s source)
    | none =>
      let last := if s.isPunct (close + 1) .semicolon then close + 1 else close
      match names.find? fun (_, given) => given == "default" with
      | some (name, _) =>
        if !x.hasDefault && f.defaultReexport.isNone then
          { f with
            edits := f.edits ++ [⟨s.lo c.first, s.hi last, s!"export default {name};".toList⟩]
            defaultReexport := some name }
        else x.dropReexport f c.first last
      | none => x.dropReexport f c.first last

/-- `export * from "…"` -/
def exportAll (c : Chunk) (f : Found) : Found :=
  match Scan.findIn (c.first + 2) c.last fun i => (fromClause? x.scan i).isSome with
  | some i => x.dropReexport f c.first (statementEnd x.scan (i + 1))
  | none => f

/-- `export type { … }` -/
def exportTypes (c : Chunk) (f : Found) : Found :=
  let s := x.scan
  match s.matching? (c.first + 2) with
  | none => f
  | some close =>
    let last := match fromClause? s (close + 1) with
      | some source => statementEnd s source
      | none => if s.isPunct (close + 1) .semicolon then close + 1 else close
    x.dropReexport f c.first last

def chunk (f : Found) (c : Chunk) : Found :=
  let s := x.scan
  let next := c.first + 1
  if s.isKeyword c.first .import then x.importChunk c f
  else if s.isKeyword c.first .export then
    if s.isPunct next .lBrace then x.exportList c f
    else if s.isPunct next .star then x.exportAll c f
    else if s.ident? next == some "type" && s.isPunct (c.first + 2) .lBrace then x.exportTypes c f
    else f
  else f

end Context

end Imports

/-- A chunk that is a default export. -/
def isDefaultExport (s : Scan) (c : Chunk) : Bool :=
  s.isKeyword c.first .export && s.isKeyword (c.first + 1) .default

/-- Removes top-level external imports and lists of exports; `none` if there are none. -/
def removeExternalImports (text : String) (aliases : List String) : Option ImportRemoval :=
  let scan := Scan.ofText text
  let chunks := scan.chunks
  let x : Imports.Context :=
    { text := text.toList, scan, aliases, hasDefault := chunks.any (isDefaultExport scan) }
  let f := chunks.foldl x.chunk ⟨[], [], 0, 0, none⟩
  if f.edits.isEmpty then none
  else some
    { text := String.ofList (Edit.applyAll x.text f.edits), bindings := f.bindings
      imports := f.imports, reexports := f.reexports, defaultReexport := f.defaultReexport }

end TsxPreview.Repair
