import TsxPreview.Repair.Annotations
import TsxPreview.Repair.Fences
import TsxPreview.Repair.Helpers
import TsxPreview.Repair.Prose

/-!
All repairs in their order: fences, external imports, annotations, trailing prose, helpers. None
fails; a revision that would change the declarations is refused with a warning.
-/

namespace TsxPreview

/-- Which repairs are made. -/
structure RepairConfig where
  stripFences : Bool := true
  removeExternalImports : Bool := true
  stripAnnotations : Bool := true
  stripProse : Bool := true
  nestHelpers : Bool := true
  deriving DecidableEq, Inhabited

/-- The entry gets every repair. Other modules keep imports, annotations and helpers. -/
inductive Profile where
  | entry | module
  deriving DecidableEq, Inhabited

structure Sanitized where
  text : String
  fixes : List Fix
  warnings : List RepairWarning
  bindings : List ExternalBinding

namespace Sanitized

/-- Nothing was done and nothing refused. -/
def isClean (s : Sanitized) : Bool := s.fixes.isEmpty && s.warnings.isEmpty

def ofText (text : String) : Sanitized := ⟨text, [], [], []⟩

def fences (s : Sanitized) : Sanitized :=
  match Repair.stripFences s.text with
  | some text => { s with text, fixes := s.fixes ++ [.strippedFences] }
  | none => s

def imports (aliases : List String) (s : Sanitized) : Sanitized :=
  match Repair.removeExternalImports s.text aliases with
  | some r => { s with text := r.text, fixes := s.fixes ++ r.fixes, bindings := r.bindings }
  | none => s

def revise (f : String → Revision) (s : Sanitized) : Sanitized :=
  match f s.text with
  | .unchanged => s
  | .applied text fix => { s with text, fixes := s.fixes ++ [fix] }
  | .refused warning => { s with warnings := s.warnings ++ [warning] }

def prose (s : Sanitized) : Sanitized :=
  match Repair.stripProse s.text with
  | some r =>
    { s with text := r.text, fixes := s.fixes ++ [.removedProse r.prose.utf8ByteSize] }
  | none => s

/-- Does a repair where it is wanted. -/
def onlyIf (wanted : Bool) (repair : Sanitized → Sanitized) (s : Sanitized) : Sanitized :=
  if wanted then repair s else s

end Sanitized

/-- Repairs a text. Imports that start with one of `aliases` are of project files. -/
def sanitize (config : RepairConfig) (aliases : List String) (profile : Profile) (text : String) :
    Sanitized :=
  let entry := profile = .entry
  Sanitized.ofText text
    |> Sanitized.onlyIf config.stripFences Sanitized.fences
    |> Sanitized.onlyIf (entry && config.removeExternalImports) (Sanitized.imports aliases)
    |> Sanitized.onlyIf (entry && config.stripAnnotations)
        (Sanitized.revise Repair.stripAnnotations)
    |> Sanitized.onlyIf config.stripProse Sanitized.prose
    |> Sanitized.onlyIf (entry && config.nestHelpers) (Sanitized.revise Repair.nestHelpers)

end TsxPreview
