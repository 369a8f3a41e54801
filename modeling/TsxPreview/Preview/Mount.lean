import TsxPreview.Preview.Page
import TsxPreview.View.Render

/-!
Mounting compiled projects. An isolated preview has globals and a document of its own and can be
interacted with; a shared one runs with the globals of the page and is shown in its container. An
error of a script becomes a failure, and nothing is left of the attempt.
-/

namespace TsxPreview

inductive Mode where
  | isolated | shared
  deriving DecidableEq, Inhabited

def Mode.name : Mode → String
  | isolated => "isolated"
  | shared => "shared"

def Mode.all : List Mode := [isolated, shared]

/-- Properties for the element that is mounted. -/
structure GivenProps where
  defaults : List (String × Json) := []
  /-- These win over the defaults and over what the element has. -/
  overrides : List (String × Json) := []
  deriving Inhabited

/-- Where a preview is shown. -/
inductive Place where
  /-- In a document of its own. -/
  | isolated (document : Document)
  /-- On the page, under a lease, with a style node. -/
  | shared (style : NodeId) (lease : Nat)
  deriving Inhabited

structure MountedTree where
  place : Place
  realm : Realm
  container : NodeId
  /-- The element that is rendered. -/
  root : Value
  loader : Nat
  deriving Inhabited

namespace MountedTree

def mode (t : MountedTree) : Mode :=
  match t.place with
  | .isolated _ => .isolated
  | .shared _ _ => .shared

def document (t : MountedTree) (p : Page) : Document :=
  match t.place with
  | .isolated d => d
  | .shared _ _ => p.document

/-- What the work of a preview starts from. -/
def stage (t : MountedTree) (p : Page) : Stage := ⟨⟨p.heap, t.realm, p.loaders⟩, t.document p⟩

/-- The preview and the page after its work. -/
def commit (t : MountedTree) (p : Page) (s : Stage) : MountedTree × Page :=
  let t := { t with realm := s.machine.realm }
  let p := { p with heap := s.machine.heap, loaders := s.machine.loaders }
  match t.place with
  | .isolated _ => ({ t with place := .isolated s.document }, p)
  | .shared _ _ => (t, { p with document := s.document })

/-- Does work of a preview. What was changed before an error stays. -/
def perform {α : Type} (t : MountedTree) (p : Page) (x : View α) :
    Except ScriptError α × MountedTree × Page :=
  let (r, s) := x.outcome (t.stage p)
  (r, t.commit p s)

/-! ### Reading -/

def html (t : MountedTree) (p : Page) : String := (t.document p).innerHtml t.container

def text (t : MountedTree) (p : Page) : String := (t.document p).textOf t.container

/-- The trees in the container. -/
def snapshot (t : MountedTree) (p : Page) : List Tree := (t.document p).childTrees t.container

/-- The elements that match a selector; none for a selector that cannot be read. -/
def queryAll? (t : MountedTree) (p : Page) (selector : String) : Option (List NodeId) :=
  (Selector.ofText? selector).map ((t.document p).selectAll t.container)

def findByText (t : MountedTree) (p : Page) (text : String) : Option NodeId :=
  (t.document p).findByText t.container text

def console (t : MountedTree) : List ConsoleEntry := t.realm.console.toList

/-- How many component instances hold hooks. -/
def instanceCount (t : MountedTree) : Nat := t.realm.hooks.instanceCount

/-! ### Unmounting -/

/-- Drops all instances and runs their cleanups. -/
def close (t : MountedTree) (p : Page) : MountedTree × Page :=
  (t.perform p (View.script (Hook.unmount Evaluator.standard))).2

/-- Runs all cleanups and gives the container back. -/
def unmount (t : MountedTree) (p : Page) : Page :=
  let (t, p) := t.close p
  let p := match t.place with
    | .isolated _ => p
    | .shared style lease => p.reclaim style lease
  { p with loaders := p.loaders.modify t.loader fun l => { l with isAlive := false } }

end MountedTree

namespace Mount

/-! ### The root element -/

def ofJsonEntries (entries : List (String × Json)) : Alloc (List (String × Value)) :=
  entries.mapM fun (name, j) => do return (name, ← Alloc.ofJson j)

/-- The element to mount for the exports of the entry. A component is made an element; an element
keeps its own properties over the defaults. -/
def rootElement (entry : String) (exports : Value) (props : GivenProps) : Script Value := do
  let injected ← ofJsonEntries (Record.ofList (props.defaults ++ props.overrides)).entries
  match ← Script.onHeap fun h => exports.get h "default" with
  | .element _ type own key =>
    let defaults ← ofJsonEntries props.defaults
    let own ← Script.onHeap fun h => (h.members own).entries
    let overrides ← ofJsonEntries props.overrides
    Alloc.element type (Record.ofList (defaults ++ own ++ overrides)) key
  | .undefined => Script.typeError (.noDefaultExport entry)
  | component =>
    if component.isCallable then
      ElementFunction.run .createElement [component, ← Alloc.members injected]
    else Script.typeError (.notComponent entry component.typeName)

/-! ### Mounting -/

/-- A loader for a project; its number. -/
def addLoader (project : CompiledProject) (packages : PackageTable) : Script Nat := do
  let number := (← get).loaders.size
  modify fun m => { m with loaders := m.loaders.push { project, packages } }
  return number

/-- Declares the packages and makes a loader with them. -/
def prepare (project : CompiledProject) : Script Nat := do
  let table ← PackageTable.make
  let globals ← Script.onRealm Realm.globals
  let install : Alloc Unit := table.install globals
  install
  addLoader project table

/-- Evaluates the entry and shows what it exports; gives the root element. -/
def start (project : CompiledProject) (props : GivenProps) (container : NodeId) (loader : Nat) :
    View Value := do
  let exports ← View.script (Evaluator.standard.require loader project.entry true)
  let root ← View.script (rootElement project.entry exports props)
  Render.display Evaluator.standard container root
  return root

/-- The place of a new preview, with its realm and container. -/
def site (mode : Mode) (config : RuntimeConfig) (p : Page) : MountedTree × Page :=
  match mode with
  | .isolated =>
    let (globals, heap) := Globals.make p.heap
    let (container, document) := Document.ofContainer "root"
    ({ place := .isolated document, realm := .ofGlobals globals config, container
       root := .undefined, loader := p.loaders.size }, { p with heap })
  | .shared =>
    let ((style, lease), p) := p.lend
    ({ place := .shared style lease, realm := .ofGlobals p.globals config
       container := p.container, root := .undefined, loader := p.loaders.size }, p)

end Mount

/-- Mounts a compiled project. After a failure nothing stays mounted. -/
def CompiledProject.mount (project : CompiledProject) (mode : Mode) (config : RuntimeConfig)
    (props : GivenProps) (p : Page) : Except Failure MountedTree × Page :=
  let (t, p) := Mount.site mode config p
  let (r, t, p) := t.perform p do
    let loader ← View.script (Mount.prepare project)
    Mount.start project props t.container loader
  match r with
  | .ok root => (.ok { t with root }, p)
  | .error e =>
    let failure := project.failure (e.renderError p.heap t.realm.fault)
    (.error failure, t.unmount p)

end TsxPreview
