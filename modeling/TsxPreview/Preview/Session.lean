import TsxPreview.Preview.Mount

/-!
Requests for previews and their form in data, and sessions. Requests are numbered, and only the newest
counts: to run an older one does nothing. Before a session is ready, requests wait. Compiled modules
are kept for the next render. An outcome is what became of a request: a preview, or the reason why
there is none.
-/

namespace TsxPreview

/-! ### Requests as data -/

/-- What one render depends on. -/
structure RenderInput where
  project : Project
  mode : Mode := .isolated
  props : GivenProps := {}
  manifest : Option Manifest := none
  deriving Inhabited

inductive RequestError where
  | unreadable
  | project (error : ProjectError)

namespace RequestError

/-- A missing entry is reported as any module that is missing. -/
def failure : RequestError → Failure
  | unreadable => .ofError (.evaluation "invalid render request" none none) none
  | project (.missingEntry path) => .ofError (.moduleNotFound path) none
  | project e => .ofError (.evaluation e.message none none) none

end RequestError

/-- A mode by its name, alone or as the one member of an object. -/
def Mode.ofJson? (j : Json) : Option Mode :=
  match j with
  | .string s => Mode.all.find? (·.name == s)
  | .object [(s, .null)] => Mode.all.find? (·.name == s)
  | _ => none

structure RenderRequest where
  files : List (String × String)
  entry : String
  mode : Mode := .isolated
  props : GivenProps := {}
  manifest : Option Manifest := none
  config : Option Config := none
  deriving Inhabited

namespace RenderRequest

/-- Texts by name, sorted. -/
def texts? (j : Json) : Option (List (String × String)) := do
  (← j.object?).foldlM (fun found (name, x) => x.string?.map fun s => insertSorted name s found) []

/-- Data by name, in the order given. -/
def entries? (j : Json) : Option (List (String × Json)) := j.distinct.object?

def ofJson? (j : Json) : Option RenderRequest := do
  let fields ← j.fields? .strict
    ["files", "entry", "mode", "props", "defaults", "manifest", "config"]
  return {
    files := ← texts? (← fields.lookup "files")
    entry := ← (← fields.lookup "entry").string?
    mode := ← Json.fieldOr .isolated Mode.ofJson? fields "mode"
    props := {
      overrides := ← Json.fieldOr [] entries? fields "props"
      defaults := ← Json.fieldOr [] entries? fields "defaults" }
    manifest := ← Json.fieldOr none (Json.nullable? Manifest.ofJson?) fields "manifest"
    config := ← Json.fieldOr none (Json.nullable? Config.ofJson?) fields "config" }

def ofText (text : String) : Except RequestError RenderRequest :=
  match Json.read text with
  | .ok j =>
    match ofJson? j with
    | some r => .ok r
    | none => .error .unreadable
  | .error _ => .error .unreadable

/-- The input that a request describes, and the settings. -/
def input (r : RenderRequest) : Except RequestError (RenderInput × Config) :=
  match Project.ofFiles r.files r.entry with
  | .ok project =>
    .ok ({ project, mode := r.mode, props := r.props, manifest := r.manifest },
      r.config.getD {})
  | .error e => .error (.project e)

end RenderRequest

/-! ### Sessions -/

inductive Outcome where
  | ready (tree : MountedTree)
  | failed (failure : Failure)
  deriving Inhabited

/-- What is told of an outcome. -/
inductive Report where
  | ready (mode : Mode) (html text : String) (console : List ConsoleEntry)
  | failed (failure : Failure)

namespace Report

def entryJson (e : ConsoleEntry) : Json :=
  .object [("level", .string e.level.name), ("message", .string e.message)]

def toJson : Report → Json
  | ready mode html text console =>
    .object [("status", .string "ready"), ("mode", .string mode.name), ("html", .string html),
      ("text", .string text), ("console", .array (console.map entryJson))]
  | failed f => Json.ofMembers (("status", some (.string "error")) :: f.members)

end Report

namespace Outcome

def ofMount : Except Failure MountedTree → Outcome
  | .ok t => ready t
  | .error f => failed f

def report (p : Page) : Outcome → Report
  | ready t => .ready t.mode (t.html p) (t.text p) t.console
  | failed f => .failed f

/-- Unmounts what is mounted. -/
def drop (p : Page) : Outcome → Page
  | ready t => t.unmount p
  | failed _ => p

end Outcome

/-! ### Requests -/

/-- Compiles an input and mounts it on a page. -/
def RenderInput.render (i : RenderInput) (c : Compiler) (config : RuntimeConfig)
    (p : Page) : Outcome × Compiler × Page :=
  match c.compile i.project i.manifest with
  | (.ok project, c) =>
    let (r, p) := project.mount i.mode config i.props p
    (.ofMount r, c, p)
  | (.error e, c) => (.failed e.failure, c, p)

/-- Names a request. -/
structure Ticket where
  generation : Nat
  deriving DecidableEq, Inhabited

/-- What became of a ticket that was run. -/
inductive RunStatus where
  | rendered
  /-- There is a newer request. -/
  | superseded
  /-- The session is not ready; the request waits. -/
  | queued
  deriving DecidableEq, Inhabited

def RunStatus.name : RunStatus → String
  | rendered => "rendered"
  | superseded => "superseded"
  | queued => "queued"

structure Session where
  config : Config
  compiler : Compiler
  /-- Whether it can compile. -/
  isReady : Bool
  page : Page
  generation : Nat := 0
  latest : Option RenderInput := none
  /-- The request whose outcome is held. -/
  rendered : Option Nat := none
  current : Option Outcome := none

namespace Session

def new (config : Config) (isReady : Bool) : Session :=
  { config, compiler := .ofConfig config, isReady, page := .new }

variable (s : Session)

/-- Unmounts what is held. -/
def dropCurrent : Session :=
  match s.current with
  | some o => { s with page := o.drop s.page, current := none }
  | none => s

/-- Renders the newest request in place of what is held. -/
def renderLatest : Session :=
  match s.latest with
  | none => s
  | some i =>
    let s := s.dropCurrent
    let (o, compiler, page) := i.render s.compiler s.config.runtime s.page
    { s with compiler, page, current := some o, rendered := some s.generation }

/-- A new request; it supersedes all before. -/
def request (i : RenderInput) : Ticket × Session :=
  let generation := s.generation + 1
  (⟨generation⟩, { s with generation, latest := some i })

def run (t : Ticket) : RunStatus × Session :=
  if t.generation ≠ s.generation then (.superseded, s)
  else if !s.isReady then (.queued, s)
  else (.rendered, s.renderLatest)

/-- Requests and runs. -/
def submit (i : RenderInput) : RunStatus × Session :=
  let (t, s) := s.request i
  s.run t

/-- Makes a session ready, once; a request that waits is rendered. -/
def provide : Option RunStatus × Session :=
  if s.isReady then (none, s)
  else
    let s := { s with isReady := true }
    if s.latest.isSome ∧ s.rendered ≠ some s.generation then (some .rendered, s.renderLatest)
    else (none, s)

/-- Unmounts what is held. -/
def clear : Session := { s.dropCurrent with rendered := none }

def report? : Option Report := s.current.map (Outcome.report s.page)

end Session

end TsxPreview
