import TsxPreview.Preview.Session

/-!
The pipeline as functions from texts to data, as a page calls it.
-/

namespace TsxPreview.Exchange

def version : String := "0.1.0"

/-- Compiles and mounts what a request describes, and reports of it. -/
def report (text : String) : Report :=
  match RenderRequest.ofText text >>= RenderRequest.input with
  | .error e => .failed e.failure
  | .ok (input, config) =>
    let (_, s) := (Session.new config true).submit input
    s.report?.getD
      (.failed (.ofError (.evaluation "render produced no outcome" none none) none))

def render (text : String) : Json := (report text).toJson

/-- Repairs an entry file. -/
def sanitize (text : String) : Json :=
  let r := TsxPreview.sanitize {} defaultAliasPrefixes .entry text
  .object [("text", .string r.text), ("fixes", .array (r.fixes.map Fix.toJson)),
    ("warnings", .array (r.warnings.map RepairWarning.toJson)),
    ("external_bindings", .array (r.bindings.map ExternalBinding.toJson))]

/-- Lowers one file. -/
def transpile (text path : String) : Json :=
  match Executable.ofLoneText (normalizePath path) text with
  | .ok x => .object [("status", .string "ok"), ("code", .string x.text)]
  | .error e =>
    (Report.failed (.ofError (.transpile e.path e.message e.span) none)).toJson

/-- Resolves a specifier against a list of paths; a list that cannot be read is empty. -/
def resolve (importer specifier paths : String) : Json :=
  let paths := match Json.read paths with
    | .ok j => ((Json.strings? j).getD []).map normalizePath
    | .error _ => []
  (TsxPreview.resolve defaultAliasPrefixes paths.contains (normalizePath importer) specifier).toJson

end TsxPreview.Exchange
