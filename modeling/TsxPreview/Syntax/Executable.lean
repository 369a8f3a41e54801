import TsxPreview.Repair.Report
import TsxPreview.Resolution
import TsxPreview.Syntax.Lowering
import TsxPreview.Syntax.Parser
import TsxPreview.Syntax.Printer

/-!
Modules that can be run: no markup, imports or exports are left at the top level. Every reference to
another module is a call of `require`; every export assigns to a property of `exports`.
-/

namespace TsxPreview

/-- Why a source text has no executable form. -/
structure TranspileError where
  path : String
  message : String
  span : Option Span
  sourceLine : Option String
  deriving DecidableEq, Inhabited

namespace TranspileError

def display (e : TranspileError) : String := s!"{e.path}: {e.message}"

/-- The first diagnostic, and the count of the others. -/
def ofDiagnostics (path : String) (d : Diagnostics) : TranspileError :=
  match d.first? with
  | none => ⟨path, "invalid source", none, none⟩
  | some first =>
    let more := d.total - 1
    let rest := if more = 0 then "" else s!" (and {more} more error(s))"
    { path, message := s!"E{first.code.number} {first.message}" ++ rest, span := some first.span
      sourceLine := if first.sourceLine.isEmpty then none else some first.sourceLine }

end TranspileError

structure Executable where
  path : String
  body : Module
  /-- Every import in the order of first appearance. -/
  imports : List ResolvedImport
  /-- The body starts with the binding of the element factory. -/
  usesMarkup : Bool

/-- The body as source text. -/
def Executable.text (e : Executable) : String := e.body.print

namespace Linking

/-- The function that yields the exports of another module. -/
def requireName : String := "require"

/-- The object that holds the exports of the module itself. -/
def exportsName : String := "exports"

def constant (pattern : Pattern) (init : Expr) (span : Span) : Stmt :=
  .var span .const [.mk pattern (some init) span]

def named (span : Span) (name : String) : Pattern := .ident ⟨name, span⟩

def renamed (imported : String) (name : Ident) : PatternProperty :=
  .mk (.named imported) (.mk (.ident name) none)

def assignment (target value : Expr) (span : Span) : Stmt :=
  .expr span (.assign span .assign target value)

/-- `exports.name = value` -/
def exportAs (name : String) (value : Expr) (span : Span) : Stmt :=
  assignment (.member span (.ident span exportsName) (.named name) false) value span

/-- `require(target)`, or `require(target, true)` for all the exports. -/
def requireCall (target : String) (all : Bool) (span : Span) : Expr :=
  let more := if all then [Item.expr (.bool span true)] else []
  .call span (.ident span requireName) (.expr (.string span target) :: more) false

/-- Copies every export of a module but the default one. -/
def copyExports (module : String) (span : Span) : Stmt :=
  let key : Expr := .ident span "__key"
  let item (object : String) : Expr := .member span (.ident span object) (.computed key) false
  let copy := assignment (item exportsName) (item module) span
  let test : Expr := .binary span .strictNotEq key (.string span "default")
  .forEach span .«in» .const (named span "__key") (.ident span module) (.«if» span test copy none)

/-- Binds the element factory and the fragment marker. -/
def factories (span : Span) : Stmt :=
  constant
    (.object [renamed "jsx" ⟨Lowering.factory, span⟩,
      renamed "Fragment" ⟨Lowering.fragment, span⟩] none)
    (requireCall HostPackage.jsxRuntime.specifier true span) span

/-- What linking has produced so far. -/
structure State where
  imports : List ResolvedImport := []
  /-- Exports of functions. They come before the body, where modules in a cycle see them. -/
  hoisted : List Stmt := []
  body : List Stmt := []
  temps : Nat := 0
  usesMarkup : Bool := false

/-- Linking of one module, whose specifiers are resolved by `resolution`. -/
structure Linker where
  path : String
  resolution : String → Resolution

abbrev Link := ReaderT Linker (StateM State)

def emit (t : Stmt) : Link Unit := modify fun s => { s with body := s.body ++ [t] }

def hoist (t : Stmt) : Link Unit := modify fun s => { s with hoisted := s.hoisted ++ [t] }

/-- Takes over a lowered node. -/
def lowered {α : Type} (x : Traced α) : Link α := do
  modify fun s => { s with usesMarkup := s.usesMarkup || x.metMarkup }
  return x.value

/-- Records an import. The first import of a specifier counts. -/
def record (i : ResolvedImport) : Link Unit :=
  modify fun s =>
    if s.imports.any fun j => j.specifier == i.specifier then s
    else { s with imports := s.imports ++ [i] }

/-- The call that yields a module. What does not resolve keeps its specifier. -/
def require (specifier : String) (all : Bool) (span : Span) : Link Expr := do
  let linker ← read
  let resolution := linker.resolution specifier
  record ⟨linker.path, specifier, resolution⟩
  return requireCall (resolution.target?.getD specifier) all span

/-- Binds all exports of a module to a new name. -/
def requireTemp (specifier : String) (span : Span) : Link String := do
  let name := s!"__reexport{(← get).temps}"
  modify fun s => { s with temps := s.temps + 1 }
  let call ← require specifier true span
  emit (constant (named span name) call span)
  return name

def binding (b : ExternalBinding) (span : Span) : Link Unit := do
  let name : Ident := ⟨b.name, span⟩
  match b.imported with
  | .default => emit (constant (.ident name) (← require b.source false span) span)
  | .star => emit (constant (.ident name) (← require b.source true span) span)
  | .named imported =>
    emit (constant (.object [renamed imported name] none) (← require b.source true span) span)

def styleSheets : List String := [".css", ".scss", ".sass", ".less"]

/-- An import for its side effects alone; style sheets have none. -/
def sideEffect (d : ImportDecl) (span : Span) : Link Unit := do
  unless styleSheets.any fun ending => d.source.endsWith ending do
    emit (.expr span (← require d.source false d.sourceSpan))

def «import» (d : ImportDecl) (span : Span) : Link Unit := do
  unless d.typeOnly do
    if d.default.isNone && d.star.isNone && d.named.isEmpty then sideEffect d span
    else
      if let some name := d.default then
        emit (constant (.ident name) (← require d.source false d.sourceSpan) span)
      if let some name := d.star then
        emit (constant (.ident name) (← require d.source true d.sourceSpan) span)
      unless d.named.isEmpty do
        let props := d.named.map fun n => renamed n.imported n.name
        emit (constant (.object props none) (← require d.source true d.sourceSpan) span)

def defaultFunction (fn : Function) (span : Span) : Link Unit := do
  let fn ← lowered fn.lower
  match fn.name? with
  | some name =>
    hoist (exportAs "default" (.ident name.span name.name) span)
    emit (.function span fn)
  | none => emit (exportAs "default" (.function span fn) span)

def declaration (t : Stmt) (span : Span) : Link Unit := do
  let t ← lowered t.lower
  if let .function _ fn := t then
    if let some name := fn.name? then
      hoist (exportAs name.name (.ident name.span name.name) span)
  emit t
  if let .var _ _ declarators := t then
    for name in declarators.flatMap fun d => d.pattern.names do
      emit (exportAs name (.ident span name) span)

def «export» (d : ExportDecl) (span : Span) : Link Unit := do
  match d with
  | .default value => emit (exportAs "default" (← lowered value.lower) span)
  | .defaultFunction fn => defaultFunction fn span
  | .decl t => declaration t span
  | .named names none _ =>
    for n in names do
      emit (exportAs n.exported (.ident span n.name) span)
  | .named names (some source) sourceSpan =>
    let temp ← requireTemp source (sourceSpan.getD span)
    for n in names do
      emit (exportAs n.exported (.member span (.ident span temp) (.named n.name) false) span)
  | .all source sourceSpan (some name) =>
    emit (exportAs name (← require source true sourceSpan) span)
  | .all source sourceSpan none =>
    let temp ← requireTemp source sourceSpan
    emit (copyExports temp span)

def statement (t : Stmt) : Link Unit :=
  match t with
  | .«import» span d => «import» d span
  | .«export» span d => «export» d span
  | t => do emit (← lowered t.lower)

/-- Links the bindings of removed imports, then each statement. -/
def module (m : Module) (bindings : List ExternalBinding) : Link Unit := do
  for b in bindings do binding b m.span
  let linked := (← get).body
  modify fun s => { s with body := [] }
  for t in m.body do statement t
  modify fun s =>
    { s with
      body := (if s.usesMarkup then [factories m.span] else []) ++ linked ++ s.hoisted ++ s.body }

end Linking

namespace Executable

/-- The executable form of a module that was read. -/
def ofModule (path : String) (resolution : String → Resolution) (bindings : List ExternalBinding)
    (m : Module) : Executable :=
  let (_, s) := (Linking.module m bindings).run ⟨path, resolution⟩ |>.run {}
  { path, body := ⟨s.body, m.span⟩, imports := s.imports, usesMarkup := s.usesMarkup }

/-- The executable form of a source text. `bindings` are those of imports that were removed. -/
def ofText (path : String) (resolution : String → Resolution) (bindings : List ExternalBinding)
    (text : String) : Except TranspileError Executable :=
  let parsed := Parsed.ofFile ⟨path, text⟩
  match parsed.module? with
  | some m => .ok (ofModule path resolution bindings m)
  | none => .error (TranspileError.ofDiagnostics path parsed.diagnostics)

/-- A text on its own: packages resolve, and other files do not. -/
def ofLoneText (path text : String) : Except TranspileError Executable :=
  ofText path (resolve defaultAliasPrefixes (fun _ => false) path) [] text

end Executable

end TsxPreview
