import TsxPreview.Source.Wire

/-!
Why a preview cannot be shown, and the report of it with an excerpt of the source.
-/

namespace TsxPreview

inductive FailureKind where
  | resolution | transpile | moduleNotFound | evaluation
  deriving DecidableEq, Inhabited

/-- The kind in data. -/
def FailureKind.name : FailureKind → String
  | resolution => "resolution"
  | transpile => "transpile"
  | moduleNotFound => "module_not_found"
  | evaluation => "evaluation"

/-- The kind in running text. -/
def FailureKind.words : FailureKind → String
  | resolution => "resolution"
  | transpile => "transpile"
  | moduleNotFound => "module not found"
  | evaluation => "evaluation"

inductive RenderError where
  /-- A specifier names no file and no package. -/
  | resolution (specifier importer : String)
  /-- A module is not valid source, even after repairs. -/
  | transpile (path message : String) (span : Option Span)
  | moduleNotFound (path : String)
  /-- A script raised what it did not catch. -/
  | evaluation (message : String) (path : Option String) (span : Option Span)
  deriving DecidableEq, Inhabited

namespace RenderError

def kind : RenderError → FailureKind
  | resolution _ _ => .resolution
  | transpile _ _ _ => .transpile
  | moduleNotFound _ => .moduleNotFound
  | evaluation _ _ _ => .evaluation

def message : RenderError → String
  | resolution specifier importer => s!"cannot resolve '{specifier}' imported from '{importer}'"
  | transpile path message _ => s!"{path}: {message}"
  | moduleNotFound path => s!"module not found: {path}"
  | evaluation message _ _ => message

/-- The file that an error points into. -/
def path? : RenderError → Option String
  | resolution _ importer => some importer
  | transpile path _ _ => some path
  | moduleNotFound _ => none
  | evaluation _ path _ => path

def span? : RenderError → Option Span
  | transpile _ _ span => span
  | evaluation _ _ span => span
  | _ => none

end RenderError

/-- What a user is shown of an error. -/
structure Failure where
  kind : FailureKind
  message : String
  path : Option String
  excerpt : Option SourceExcerpt
  deriving DecidableEq, Inhabited

namespace Failure

/-- With an excerpt where the file is known; an error without a place points at the first line. -/
def ofError (error : RenderError) (file : Option SourceFile) : Failure :=
  { kind := error.kind, message := error.message, path := error.path?
    excerpt := file.map fun f => SourceExcerpt.around f ((error.span?.map Span.line).getD 1) }

def display (f : Failure) : String := s!"[{f.kind.words}] {f.message}"

def members (f : Failure) : List (String × Option Json) :=
  [("kind", some (.string f.kind.name)), ("message", some (.string f.message)),
    ("path", f.path.map .string), ("excerpt", f.excerpt.map SourceExcerpt.toJson)]

def toJson (f : Failure) : Json := Json.ofMembers f.members

end Failure

end TsxPreview
