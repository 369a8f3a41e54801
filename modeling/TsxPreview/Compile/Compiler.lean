import TsxPreview.Compile.Cache
import TsxPreview.Config
import TsxPreview.Failure

/-!
Compilation of projects: every module that can be reached from the entry is repaired, lowered and
linked. Files that nothing imports are never read.
-/

namespace TsxPreview

/-- An error, and the text it points into. -/
structure CompileError where
  error : RenderError
  file : Option SourceFile
  deriving Inhabited

def CompileError.failure (e : CompileError) : Failure := Failure.ofError e.error e.file

/-- The modules that were reached, sorted by path. -/
structure CompiledProject where
  entry : String
  modules : List (String × CompiledModule)
  warnings : List CompileWarning
  deriving Inhabited

namespace CompiledProject

def module? (p : CompiledProject) (path : String) : Option CompiledModule := p.modules.lookup path

/-- What was repaired in the entry. -/
def entryFixes (p : CompiledProject) : List Fix :=
  ((p.module? p.entry).map CompiledModule.fixes).getD []

/-- The report of an error, with an excerpt of the module it points into. -/
def failure (p : CompiledProject) (e : RenderError) : Failure :=
  Failure.ofError e ((e.path?.bind p.module?).map CompiledModule.source)

end CompiledProject

/-- Compiles projects under fixed settings and keeps what it compiled. -/
structure Compiler where
  repair : RepairConfig := {}
  aliases : List String := defaultAliasPrefixes
  cache : CompileCache := {}

namespace Compiler

def ofConfig (config : Config) : Compiler := { repair := config.repair, aliases := config.aliases }

variable (c : Compiler)

/-- Resolves a specifier in a file of a project. -/
def resolution (p : Project) (path specifier : String) : Resolution :=
  resolve c.aliases p.contains path specifier

/-- A stored module is valid while its imports resolve as they did. -/
def isValid (p : Project) (path : String) (m : CompiledModule) : Bool :=
  m.imports.all fun i => c.resolution p path i.specifier == i.resolution

/-- Lowers a repaired text. -/
def compileText (p : Project) (path : String) (s : Sanitized) (f : Fingerprint) :
    Except CompileError CompiledModule :=
  let source : SourceFile := ⟨path, s.text⟩
  match Executable.ofText path (c.resolution p path) s.bindings s.text with
  | .ok executable =>
    .ok { path, executable, source, fixes := s.fixes, warnings := s.warnings, fingerprint := f }
  | .error e => .error ⟨.transpile e.path e.message e.span, some source⟩

/-- One module, from the store if it is there. -/
def compileModule (p : Project) (path : String) (profile : Profile) :
    Except CompileError CompiledModule × Compiler :=
  match p.get? path with
  | none => (.error ⟨.moduleNotFound path, none⟩, c)
  | some text =>
    let s := sanitize c.repair c.aliases profile text
    let f := Fingerprint.of path profile s.text s.bindings
    let (found, cache) := c.cache.lookup f (c.isValid p path)
    match found with
    | some m => (.ok m, { c with cache })
    | none =>
      match c.compileText p path s f with
      | .ok m => (.ok m, { c with cache := cache.insert m })
      | .error e => (.error e, { c with cache })

/-- How far a compilation has come. -/
structure Search where
  /-- Paths that were reached but not compiled, in order. -/
  queue : List String
  /-- Paths that were reached. -/
  seen : List String
  modules : List (String × CompiledModule)
  warnings : List CompileWarning

/-- Reaches the imports of the module at `path`, unless one of them does not resolve. -/
def Search.reach (s : Search) (path : String) (source : SourceFile) :
    List ResolvedImport → Except CompileError Search
  | [] => .ok s
  | i :: rest =>
    match i.resolution with
    | .unresolved => .error ⟨.resolution i.specifier path, some source⟩
    | .package _ => s.reach path source rest
    | .path target =>
      if s.seen.contains target then s.reach path source rest
      else
        Search.reach { s with queue := s.queue ++ [target], seen := target :: s.seen }
          path source rest

/-- Keeps the module that was compiled for `path`. -/
def Search.add (s : Search) (path : String) (m : CompiledModule) : Search :=
  { s with
    modules := insertSorted path m s.modules
    warnings := s.warnings ++ m.warnings.map (CompileWarning.repair path) }

/-- Compiles what is queued. Each round compiles a file that was not compiled before, so as many
rounds as there are files are enough. -/
def search (p : Project) :
    (rounds : Nat) → Compiler → Search → Except CompileError Search × Compiler
  | 0, c, s => (.ok s, c)
  | rounds + 1, c, s =>
    match s.queue with
    | [] => (.ok s, c)
    | path :: queue =>
      let profile := if path = p.entry then Profile.entry else Profile.module
      match c.compileModule p path profile with
      | (.error e, c) => (.error e, c)
      | (.ok m, c) =>
        match Search.reach { s with queue } path m.source m.imports with
        | .error e => (.error e, c)
        | .ok s => search p rounds c (s.add path m)

/-- Compiles the entry and, breadth first, every file that it reaches. -/
def compile (p : Project) (manifest : Option Manifest) :
    Except CompileError CompiledProject × Compiler :=
  let warnings := (manifest.map Manifest.warnings).getD []
  let start : Search := { queue := [p.entry], seen := [p.entry], modules := [], warnings }
  match search p p.files.length c start with
  | (.ok s, c) => (.ok ⟨p.entry, s.modules, s.warnings⟩, c)
  | (.error e, c) => (.error e, c)

end Compiler

/-- Compiles a project once. -/
def Config.compile (config : Config) (p : Project) : Except CompileError CompiledProject :=
  ((Compiler.ofConfig config).compile p none).1

end TsxPreview
