import TsxPreview.HostPackage
import TsxPreview.Json.Basic
import TsxPreview.Json.Reader
import TsxPreview.Project
import TsxPreview.Repair.Report
import TsxPreview.Repair.Sanitize

/-!
Settings of a preview: which repairs are made, how specifiers resolve and what scripts may use. And
the packages that a project declares, with the warnings of a compilation: a declared package that the
host does not supply gives one.
-/

namespace TsxPreview

/-! ### Manifests -/

inductive CompileWarning where
  /-- A repair of a file was refused. -/
  | repair (path : String) (warning : RepairWarning)
  /-- A declared package is not supplied. -/
  | package (package version : String)
  deriving DecidableEq

namespace CompileWarning

def message : CompileWarning → String
  | repair path warning => s!"{path}: {warning.message}"
  | package name version => s!"package '{name}@{version}' has no host shim"

def toJson : CompileWarning → Json
  | repair path warning =>
    .object [("source", .string "sanitizer"), ("path", .string path), ("warning", warning.toJson)]
  | package name version =>
    .object [("source", .string "manifest"), ("package", .string name),
      ("version", .string version)]

end CompileWarning

/-- Packages with their versions, sorted by name. -/
structure Manifest where
  dependencies : List (String × String) := []
  deriving DecidableEq, Inhabited

namespace Manifest

def dependenciesOfJson? (j : Json) : Option (List (String × String)) := do
  let members ← j.object?
  members.foldlM (fun found (name, version) =>
    version.string?.map fun v => insertSorted name v found) []

/-- Members other than `dependencies` are ignored. -/
def ofJson? (j : Json) : Option Manifest := do
  let fields ← j.fields? .lenient ["dependencies"]
  return ⟨← Json.fieldOr [] dependenciesOfJson? fields "dependencies"⟩

def ofText? (text : String) : Option Manifest :=
  match Json.read text with
  | .ok j => ofJson? j
  | .error _ => none

/-- Packages that the host supplies, or that stand for the host itself. -/
def isSupplied (name : String) : Bool :=
  (HostPackage.ofSpecifier? name).isSome || name == "react-dom" || name == "typescript"

def warnings (m : Manifest) : List CompileWarning :=
  (m.dependencies.filter fun (name, _) => !isSupplied name).map fun (name, version) =>
    .package name version

end Manifest

/-! ### Settings -/

/-- What a script runs with. -/
structure RuntimeConfig where
  /-- Evaluation steps allowed in one run. -/
  stepLimit : Option Nat := none
  /-- Below `2 ^ 64`. -/
  randomSeed : Nat := 0x5EED
  /-- The time that scripts see, in milliseconds since 1970. -/
  clockMs : Float := 1700000000000
  deriving Inhabited

structure Config where
  repair : RepairConfig := {}
  /-- Prefixes that stand for the root of the project. -/
  aliases : List String := defaultAliasPrefixes
  runtime : RuntimeConfig := {}
  deriving Inhabited

namespace RepairConfig

def ofJson? (j : Json) : Option RepairConfig := do
  let fields ← j.fields? .strict ["strip_fences", "remove_external_imports",
    "strip_type_annotations", "strip_trailing_prose", "nest_helpers"]
  let flag := Json.fieldOr true Json.bool? fields
  return {
    stripFences := ← flag "strip_fences"
    removeExternalImports := ← flag "remove_external_imports"
    stripAnnotations := ← flag "strip_type_annotations"
    stripProse := ← flag "strip_trailing_prose"
    nestHelpers := ← flag "nest_helpers" }

def toJson (c : RepairConfig) : Json :=
  .object [("strip_fences", .bool c.stripFences),
    ("remove_external_imports", .bool c.removeExternalImports),
    ("strip_type_annotations", .bool c.stripAnnotations),
    ("strip_trailing_prose", .bool c.stripProse), ("nest_helpers", .bool c.nestHelpers)]

end RepairConfig

namespace RuntimeConfig

def ofJson? (j : Json) : Option RuntimeConfig := do
  let fields ← j.fields? .strict ["step_limit", "random_seed", "clock_ms"]
  let standard : RuntimeConfig := {}
  return {
    stepLimit := ← Json.fieldOr standard.stepLimit (Json.nullable? Json.word?) fields "step_limit"
    randomSeed := ← Json.fieldOr standard.randomSeed Json.word? fields "random_seed"
    clockMs := ← Json.fieldOr standard.clockMs Json.float? fields "clock_ms" }

end RuntimeConfig

namespace Config

def aliasesOfJson? (j : Json) : Option (List String) := do
  let fields ← j.fields? .strict ["alias_prefixes"]
  Json.fieldOr defaultAliasPrefixes Json.strings? fields "alias_prefixes"

/-- What is absent keeps its default; what is unknown is refused. -/
def ofJson? (j : Json) : Option Config := do
  let fields ← j.fields? .strict ["sanitizer", "resolver", "runtime"]
  return {
    repair := ← Json.fieldOr {} RepairConfig.ofJson? fields "sanitizer"
    aliases := ← Json.fieldOr defaultAliasPrefixes aliasesOfJson? fields "resolver"
    runtime := ← Json.fieldOr {} RuntimeConfig.ofJson? fields "runtime" }

def ofText? (text : String) : Option Config :=
  match Json.read text with
  | .ok j => ofJson? j
  | .error _ => none

end Config

end TsxPreview
