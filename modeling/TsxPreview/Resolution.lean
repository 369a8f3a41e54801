import TsxPreview.HostPackage
import TsxPreview.Project
import TsxPreview.Source.Wire

/-!
What a specifier names: a file of the project, a package of the host, or nothing. Every specifier
has an answer.
-/

namespace TsxPreview

inductive Resolution where
  | path (path : String)
  | package (package : HostPackage)
  | unresolved
  deriving DecidableEq, Inhabited

namespace Resolution

/-- What a loader is asked for. -/
def target? : Resolution → Option String
  | path p => some p
  | package p => some p.specifier
  | unresolved => none

def isResolved (r : Resolution) : Bool := r != unresolved

def toJson : Resolution → Json
  | path p => .object [("kind", .string "path"), ("target", .string p)]
  | package p => .object [("kind", .string "external"), ("target", .string p.specifier)]
  | unresolved => .object [("kind", .string "unresolved")]

/-- What is appended, in this order, to find the file that a specifier leaves incomplete. -/
def suffixes : List String :=
  [".tsx", ".jsx", ".ts", ".js", "/index.tsx", "/index.jsx", "/index.ts", "/index.js"]

/-- The path that a specifier spells, before it is completed. -/
def spelled? (aliases : List String) (importer specifier : String) : Option String :=
  match SpecifierKind.classify specifier aliases with
  | .relative => some (normalizePath (parentDir importer ++ "/" ++ specifier))
  | .absolute => some (normalizePath specifier)
  | .aliased =>
    (aliases.find? fun p => specifier.startsWith p).map fun p =>
      normalizePath (String.ofList (specifier.toList.drop p.length))
  | .bare => none

/-- The file itself, or the first completion of it that exists. -/
def complete? (hasFile : String → Bool) (base : String) : Option String :=
  (base :: suffixes.map fun suffix => normalizePath (base ++ suffix)).find? hasFile

end Resolution

/-- Resolves a specifier as written in the file `importer`. Files come before packages. -/
def resolve (aliases : List String) (hasFile : String → Bool) (importer specifier : String) :
    Resolution :=
  let file := (Resolution.spelled? aliases importer specifier).bind (Resolution.complete? hasFile)
  match file with
  | some path => .path path
  | none =>
    match HostPackage.ofSpecifier? specifier with
    | some p => .package p
    | none => .unresolved

/-- An import of a module with what it resolved to. -/
structure ResolvedImport where
  importer : String
  specifier : String
  resolution : Resolution
  deriving DecidableEq, Inhabited

def ResolvedImport.toJson (i : ResolvedImport) : Json :=
  .object [("from_path", .string i.importer), ("specifier", .string i.specifier),
    ("resolution", i.resolution.toJson)]

end TsxPreview
