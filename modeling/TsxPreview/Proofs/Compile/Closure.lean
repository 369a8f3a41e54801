import TsxPreview.Proofs.Compile.Search
import TsxPreview.Proofs.Compile.Transparency
import TsxPreview.Proofs.Script.Running
import TsxPreview.Script.Host

/-!
Compiled projects are closed and complete. Their modules are what the entry reaches, and every
`require` that linking generated finds a module of the project or a package. A project that has
anything unresolved or invalid within reach is refused.
-/

namespace TsxPreview

theorem HostPackage.isSome_ofSpecifier?_specifier (p : HostPackage) :
    (ofSpecifier? p.specifier).isSome = true := by
  cases p <;> decide

theorem Alloc.bind_apply {α β : Type} (x : Alloc α) (f : α → Alloc β) (h : Heap) :
    (x >>= f) h = f (x h).1 (x h).2 := rfl

theorem Alloc.pure_apply {α : Type} (a : α) (h : Heap) : (pure a : Alloc α) h = (a, h) := rfl

namespace PackageTable

/-- A new table has every package. -/
theorem packages_make (h : Heap) : (make h).1.map Prod.fst = HostPackage.all := by
  unfold make
  simp only [Alloc.bind_apply, Alloc.pure_apply, List.map_cons, List.map_nil]
  rfl

theorem container?_of_packages {table : PackageTable} (complete : table.map Prod.fst = HostPackage.all)
    {specifier : String} (package : (HostPackage.ofSpecifier? specifier).isSome = true) :
    ∃ v, container? table specifier = some v := by
  obtain ⟨p, hp⟩ := Option.isSome_iff_exists.mp package
  have mem : p ∈ table.map Prod.fst := by
    rw [complete]
    cases p <;> decide
  obtain ⟨v, hv⟩ := lookup_of_mem_keys mem
  exact ⟨v, by rw [container?, hp]; exact hv⟩

end PackageTable

namespace CompiledProject

/-- A loader that asks for `target` finds exports or a module to evaluate: the lookup itself never
fails, whatever has been loaded so far. -/
def Serves (r : CompiledProject) (target : String) : Prop :=
  ∀ (ev : Evaluator) (id : Nat) (machine : Machine) (loader : Loader) (h : Heap),
    machine.loaders[id]? = some loader → loader.project = r →
    loader.packages = (PackageTable.make h).1 →
    (∃ v, ev.exportsOf id target machine = .ok v machine) ∨
      ∃ m, r.module? target = some m ∧
        ev.exportsOf id target machine = ev.evaluateModule id m.path m.executable.body.body machine

theorem serves_of_found {r : CompiledProject} {target : String}
    (found : (r.module? target).isSome = true ∨
      (HostPackage.ofSpecifier? target).isSome = true) : r.Serves target := by
  intro ev id machine loader h there project packages
  unfold Evaluator.exportsOf
  simp only [Script.get_bind_apply, there, project]
  cases container : PackageTable.container? loader.packages target with
  | some v => exact Or.inl ⟨v, rfl⟩
  | none =>
    cases loader.records.lookup target with
    | some exports => exact Or.inl ⟨.object exports, rfl⟩
    | none =>
      cases module : r.module? target with
      | some m => exact Or.inr ⟨m, rfl, rfl⟩
      | none =>
        -- the target is no module, so it is a package, and those were looked up first
        rcases found with known | package
        · rw [module] at known
          cases known
        · have complete : loader.packages.map Prod.fst = HostPackage.all := by
            rw [packages, PackageTable.packages_make]
          obtain ⟨v, hv⟩ := PackageTable.container?_of_packages complete package
          rw [hv] at container
          cases container

/-- The module is linked with a resolver, and what its generated calls of `require` ask for is a
module of the project or a package. -/
structure Linked (r : CompiledProject) (resolution : String → Resolution) (m : CompiledModule)
    (bindings : List ExternalBinding) (parsed : Module) : Prop where
  read : (Parsed.ofFile m.source).module? = some parsed
  executable : m.executable = Executable.ofModule m.path resolution bindings parsed
  targets : ∀ t ∈ Linking.targets resolution parsed bindings,
    (r.module? t).isSome = true ∨ (HostPackage.ofSpecifier? t).isSome = true
  serves : ∀ t ∈ Linking.targets resolution parsed bindings, r.Serves t

/-- A compiled project is closed: its modules are what the entry reaches, all of them files of the
project, and each finds what it requires. -/
structure Closed (c : Compiler) (p : Project) (r : CompiledProject) : Prop where
  entry : r.entry = p.entry
  least : ∀ path, path ∈ r.modules.map Prod.fst ↔ Reached r.entry r.modules path
  files : ∀ path ∈ r.modules.map Prod.fst, p.contains path = true
  resolved : ∀ path m, r.module? path = some m → ∀ i ∈ m.imports, i.resolution ≠ .unresolved
  linked : ∀ path m, r.module? path = some m →
    ∃ bindings parsed, r.Linked (c.resolution p path) m bindings parsed

end CompiledProject

namespace Compiler

variable {known : List UInt8 → Prop}

/-- A finished search is a closed project. -/
theorem Invariant.closed {c : Compiler} {p : Project} {s : Search} (inv : Invariant known c p s)
    (done : s.queue = []) : (finish p s).Closed c p := by
  have keys (path : String) : path ∈ s.modules.map Prod.fst ↔ path ∈ s.seen := by
    rw [← inv.split.mem_iff, done, List.append_nil]
  -- the other inclusion is in the invariant
  have reached {path : String} (h : Reached p.entry s.modules path) : path ∈ s.seen := by
    cases h with
    | entry => exact inv.entry
    | «import» _ found mem resolved =>
      exact inv.targets _ (mem_of_lookup found) _ mem _ resolved
  refine ⟨rfl, fun path => ?_, fun path h => inv.files path ((keys path).mp h), ?_, ?_⟩
  · exact (keys path).trans ⟨inv.reached path, reached⟩
  · intro path m found
    exact inv.resolved _ (mem_of_lookup found)
  · intro path m found
    have mem : (path, m) ∈ s.modules := mem_of_lookup found
    obtain ⟨text, -, made⟩ := inv.compiled _ mem
    obtain ⟨o, makes, -⟩ := made.origin
    have executable := makes.executable_eq made.valid
    have targets : ∀ t ∈ Linking.targets (c.resolution p path) o.parsed o.bindings,
        ((finish p s).module? t).isSome = true ∨ (HostPackage.ofSpecifier? t).isSome = true := by
      intro t ht
      rcases Linking.mem_targets ht with rfl | ⟨specifier, hs, rfl⟩
      · exact Or.inr (HostPackage.isSome_ofSpecifier?_specifier .jsxRuntime)
      -- the request is recorded, so it resolved to something that was reached
      · have recorded : ⟨m.path, specifier, c.resolution p path specifier⟩ ∈ m.imports := by
          rw [CompiledModule.imports, executable]
          exact (Executable.mem_imports_ofModule _ _ _ _ _).mpr ⟨specifier, hs, rfl⟩
        have resolved := inv.resolved _ mem _ recorded
        have reaches := inv.targets _ mem _ recorded
        unfold Linking.target
        dsimp only at resolved reaches
        cases res : c.resolution p path specifier with
        | path target =>
          obtain ⟨n, hn⟩ := lookup_of_mem_keys ((keys target).mpr (reaches target res))
          exact Or.inl (Option.isSome_iff_exists.mpr ⟨n, hn⟩)
        | package q => exact Or.inr (HostPackage.isSome_ofSpecifier?_specifier q)
        | unresolved => exact absurd res resolved
    exact ⟨o.bindings, o.parsed, makes.parsed, executable, targets,
      fun t ht => CompiledProject.serves_of_found (targets t ht)⟩

/-! ## Files within reach -/

/-- What a file is compiled to on its own, without the store. -/
def freshModule (c : Compiler) (p : Project) (path : String) : Except CompileError CompiledModule :=
  (compileModule { c with cache := {} } p path (p.profile path)).1

/-- The files that the entry reaches through what each file imports. -/
inductive Reachable (c : Compiler) (p : Project) : String → Prop where
  | entry : Reachable c p p.entry
  | import {path target : String} {m : CompiledModule} {i : ResolvedImport}
      (reachable : Reachable c p path) (compiled : c.freshModule p path = .ok m)
      (mem : i ∈ m.imports) (resolved : i.resolution = .path target) : Reachable c p target

/-- A file that does not transpile or imports what does not resolve. -/
def isBroken (c : Compiler) (p : Project) (path : String) : Bool :=
  match c.freshModule p path with
  | .ok m => m.imports.any fun i => !i.resolution.isResolved
  | .error _ => true

/-- Without collisions, a module of a finished search is what its file is compiled to now. -/
theorem Invariant.freshModule_eq {messages : List (List UInt8)}
    (free : Sha256.CollisionFree messages) {c : Compiler} {p : Project} {s : Search}
    (covers : Covers (· ∈ messages) c p) (inv : Invariant (· ∈ messages) c p s) {path : String}
    {m : CompiledModule} (mem : (path, m) ∈ s.modules) :
    ∃ n, c.freshModule p path = .ok n ∧ n.imports = m.imports := by
  obtain ⟨text, found, made⟩ := inv.compiled _ mem
  have alike : Alike c { c with cache := {} } := ⟨rfl, rfl⟩
  have new : ({ c with cache := {} } : Compiler).Sound (· ∈ messages) := .of_empty rfl
  have fresh := (compileModule_spec new found ((covers.alike alike).mem found)).2.2
  have code := (Outcome.compiled made).code_eq free alike (covers.mem found) fresh
  unfold freshModule
  generalize (compileModule { c with cache := {} } p path (p.profile path)).1 = r at code
  cases r with
  | error e => cases code
  | ok n =>
    have executable : m.executable = n.executable :=
      congrArg ModuleCode.executable (Except.ok.inj code)
    exact ⟨n, rfl, congrArg Executable.imports executable.symm⟩

/-- A finished search has compiled everything within reach, and nothing of it is broken. -/
theorem Invariant.not_isBroken {messages : List (List UInt8)}
    (free : Sha256.CollisionFree messages) {c : Compiler} {p : Project} {s : Search}
    (covers : Covers (· ∈ messages) c p) (inv : Invariant (· ∈ messages) c p s)
    (done : s.queue = []) {path : String} (h : Reachable c p path) : c.isBroken p path = false := by
  have compiled {path : String} (seen : path ∈ s.seen) : ∃ m, (path, m) ∈ s.modules := by
    rw [← inv.split.mem_iff, done, List.append_nil] at seen
    obtain ⟨⟨_, m⟩, he, rfl⟩ := List.mem_map.mp seen
    exact ⟨m, he⟩
  -- by induction on how the path is reached: each file on the way was compiled, and to the same
  -- imports as now
  have seen : path ∈ s.seen := by
    induction h with
    | entry => exact inv.entry
    | «import» _ fresh mem resolved ih =>
      obtain ⟨m, hm⟩ := compiled ih
      obtain ⟨n, made, imports⟩ := inv.freshModule_eq free covers hm
      rw [fresh] at made
      cases made
      exact inv.targets _ hm _ (imports ▸ mem) _ resolved
  obtain ⟨m, hm⟩ := compiled seen
  obtain ⟨n, made, imports⟩ := inv.freshModule_eq free covers hm
  unfold isBroken
  rw [made]
  dsimp only
  rw [imports, List.any_eq_false]
  intro i hi
  have resolved := inv.resolved _ hm i hi
  simpa [Resolution.isResolved] using resolved

end Compiler

end TsxPreview
