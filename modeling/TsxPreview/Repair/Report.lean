import TsxPreview.Source.Wire

/-!
What the repairs did to a text: the fixes applied, the revisions refused, and the bindings of
removed imports.
-/

namespace TsxPreview

/-- How many of `const`, `let`, `var` and `function` a text has, in all and outside braces. -/
structure Census where
  total : Nat
  topLevel : Nat
  deriving DecidableEq, Inhabited

def Census.display (c : Census) : String := s!"{c.total}/{c.topLevel}"

inductive Fix where
  | strippedFences
  | removedImports (count : Nat)
  | removedReexports (count : Nat)
  /-- `export { X as default }` became `export default X;`. -/
  | rewroteDefaultReexport (name : String)
  | strippedAnnotations (count : Nat)
  | removedProse (bytes : Nat)
  | nestedHelpers (names : List String)
  deriving DecidableEq

def Fix.message : Fix → String
  | strippedFences => "stripped code fences"
  | removedImports count => s!"removed {count} external import(s)"
  | removedReexports count => s!"removed {count} re-export(s)"
  | rewroteDefaultReexport name => s!"rewrote default re-export of '{name}'"
  | strippedAnnotations count => s!"stripped {count} type annotation(s)"
  | removedProse bytes => s!"removed {bytes} byte(s) of trailing prose"
  | nestedHelpers names =>
    "nested helper(s) " ++ String.intercalate ", " names ++ " inside the main export"

/-- A revision that was thrown away because it changed the census. -/
inductive RepairWarning where
  | annotations (before after : Census)
  | helpers (before after : Census) (names : List String)
  deriving DecidableEq

def RepairWarning.message : RepairWarning → String
  | annotations before after =>
    s!"type stripping refused: declarations {before.display} became {after.display}"
  | helpers before after names =>
    "helper nesting refused for " ++ String.intercalate ", " names
      ++ s!": declarations {before.display} became {after.display}"

/-- What an import takes from its module. -/
inductive ImportedName where
  | default
  | named (name : String)
  | star
  deriving DecidableEq, Inhabited

/-- A local name that a removed import bound. -/
structure ExternalBinding where
  name : String
  imported : ImportedName
  source : String
  deriving DecidableEq, Inhabited

/-- What a guarded revision came to. -/
inductive Revision where
  | unchanged
  | applied (text : String) (fix : Fix)
  | refused (warning : RepairWarning)
  deriving DecidableEq

/-! ### As data -/

def Census.toJson (c : Census) : Json :=
  .object [("total", .ofNat c.total), ("top_level", .ofNat c.topLevel)]

def Fix.toJson : Fix → Json
  | strippedFences => .object [("fix", .string "stripped_fences")]
  | removedImports count =>
    .object [("fix", .string "removed_imports"), ("count", .ofNat count)]
  | removedReexports count =>
    .object [("fix", .string "removed_reexports"), ("count", .ofNat count)]
  | rewroteDefaultReexport name =>
    .object [("fix", .string "rewrote_default_reexport"), ("local", .string name)]
  | strippedAnnotations count =>
    .object [("fix", .string "stripped_type_annotations"), ("count", .ofNat count)]
  | removedProse bytes =>
    .object [("fix", .string "removed_trailing_prose"), ("bytes", .ofNat bytes)]
  | nestedHelpers names =>
    .object [("fix", .string "nested_helpers"), ("names", .ofStrings names)]

def RepairWarning.toJson : RepairWarning → Json
  | annotations before after =>
    .object [("warning", .string "type_strip_refused"), ("before", before.toJson),
      ("after", after.toJson)]
  | helpers before after names =>
    .object [("warning", .string "helper_nesting_refused"), ("before", before.toJson),
      ("after", after.toJson), ("helpers", .ofStrings names)]

def ImportedName.toJson : ImportedName → Json
  | default => .object [("kind", .string "default")]
  | named name => .object [("kind", .string "named"), ("name", .string name)]
  | star => .object [("kind", .string "namespace")]

def ExternalBinding.toJson (b : ExternalBinding) : Json :=
  .object [("local", .string b.name), ("imported", b.imported.toJson),
    ("source", .string b.source)]

end TsxPreview
