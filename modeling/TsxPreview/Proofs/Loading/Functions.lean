import TsxPreview.Proofs.Compile.Closure
import TsxPreview.Proofs.Loading.Once
import TsxPreview.Proofs.Loading.Opening

/-!
Which functions of a module others see while it is being evaluated.
-/

namespace TsxPreview

namespace Value

/-- The object that a value refers to. -/
def objectRef? : Value → Option ObjectRef
  | object r => some r
  | _ => none

theorem objectRef?_eq_some {v : Value} {r : ObjectRef} : v.objectRef? = some r ↔ v = object r := by
  cases v <;> simp [objectRef?]

theorem text?_eq_some {v : Value} {s : String} : v.text? = some s ↔ v = string s := by
  cases v <;> simp [text?]

end Value

namespace Compiler

/-- A module of a compiled project is linked from what its file holds now, and the imports that were
removed from it are of packages. -/
theorem compile_linked {config : Config} {calls : List Call} {call : Call}
    (free : Sha256.CollisionFree ((ofConfig config).contentsOf (call :: calls)))
    {r : CompiledProject}
    (compiled : (((ofConfig config).after calls).compile call.1 call.2).1 = .ok r)
    {path : String} {m : CompiledModule} (module : r.module? path = some m) :
    ∃ bindings parsed, (Parsed.ofFile m.source).module? = some parsed ∧
      m.executable = Executable.ofModule path ((ofConfig config).resolution call.1 path) bindings
        parsed ∧
      ∀ b ∈ bindings, (HostPackage.ofSpecifier? (Linking.target
        ((ofConfig config).resolution call.1 path) b.source)).isSome = true := by
  obtain ⟨text, got, made, resolved⟩ := compile_modules compiled module
  obtain ⟨linked, -, source⟩ := made.linked_eq free (mem_contentsOf _ List.mem_cons_self got)
  unfold Compiler.linked Executable.ofText at linked
  dsimp only at linked
  rw [← source] at linked
  cases read : (Parsed.ofFile m.source).module? with
  | none =>
    rw [read] at linked
    cases linked
  | some parsed =>
    rw [read] at linked
    have executable := (Except.ok.inj linked).symm
    refine ⟨_, parsed, rfl, executable, fun b mem => ?_⟩
    have external := (isKept_sanitize _ _ _ _ b mem).external
    unfold Linking.target
    obtain ⟨q, package⟩ | missing := resolution_of_isExternal external call.1 path
    · rw [package]
      exact HostPackage.isSome_ofSpecifier?_specifier q
    · -- what does not resolve would have been refused
      have recorded : ⟨path, b.source, (ofConfig config).resolution call.1 path b.source⟩ ∈
          m.imports := by
        rw [CompiledModule.imports, executable]
        exact (Executable.mem_imports_ofModule _ _ _ _ _).mpr
          ⟨b.source, Linking.source_mem_specifiers parsed mem, rfl⟩
      exact absurd missing (resolved _ recorded)

/-- The container of a module holds its functions before the module begins another one. The body
opens with statements that ask for packages at most; when they have run, every function that the
module exports by name is there to be called. If one of them fails, no other module began either. -/
theorem compile_exportsFunctions (config : Config) (calls : List Call) (call : Call)
    (free : Sha256.CollisionFree ((ofConfig config).contentsOf (call :: calls)))
    {r : CompiledProject}
    (compiled : (((ofConfig config).after calls).compile call.1 call.2).1 = .ok r)
    {path : String} {m : CompiledModule} (module : r.module? path = some m)
    (apart : Linking.NamesApart m.executable.body.body) :
    ∃ parsed first rest, (Parsed.ofFile m.source).module? = some parsed ∧
      m.executable.body.body = first ++ rest ∧
      ∀ (levels id : Nat) (l : Loader) (exports : ObjectRef) (machine : Machine),
        machine.loaders[id]? = some l → l.packages.map Prod.fst = HostPackage.all →
        exports.index < machine.heap.objects.size →
        Script.Ends
          (Evaluator.moduleScope id exports >>= (Evaluator.atLevel levels).openBlock first rest)
          machine
          (fun c m' => c = .normal ∧ (∃ history, m'.loaders[id]? = some { l with history }) ∧
            ∀ key ∈ parsed.functionKeys,
              ∃ v, (m'.heap.members exports).get? key = some v ∧ v.isCallable = true)
          fun m' => ∃ history, m'.loaders[id]? = some { l with history } := by
  obtain ⟨bindings, parsed, read, executable, packages⟩ := compile_linked free compiled module
  rw [executable] at apart ⊢
  obtain ⟨first, rest, whole, opens⟩ := Executable.opens_ofModule path
    ((ofConfig config).resolution call.1 path) bindings parsed
    (fun target => (HostPackage.ofSpecifier? target).isSome = true)
    (HostPackage.isSome_ofSpecifier?_specifier .jsxRuntime) packages apart
  rw [whole] at apart ⊢
  refine ⟨parsed, first, rest, read, rfl, fun levels id l exports machine there complete isObject =>
    Evaluator.ends_openBlock (opens.mono fun target package => ?_) apart.functions levels id there
      isObject⟩
  obtain ⟨v, found⟩ := PackageTable.container?_of_packages complete package
  exact Option.isSome_iff_exists.mpr ⟨v, found⟩

/-- An entry that exports a function and requires itself. -/
theorem compile_exportsFunctions_self :
    let p := Project.single "/App.tsx" "import './App';\nexport default function App() \x7b\x7d"
    let exports : ObjectRef := ⟨0⟩
    let table := PackageTable.make { objects := #[.empty] }
    Sha256.CollisionFree ((ofConfig {}).contentsOf [(p, none)]) ∧
      ∃ r m, (((ofConfig {}).after []).compile p none).1 = .ok r ∧
        r.module? "/App.tsx" = some m ∧ Linking.NamesApart m.executable.body.body ∧
        let l : Loader := { project := r, packages := table.1 }
        ∃ first rest, m.executable.body.body = first ++ rest ∧
          Script.Ends
            (Evaluator.moduleScope 0 exports >>= (Evaluator.atLevel 20).openBlock first rest)
            ⟨table.2, default, #[l]⟩
            (fun _ m' => ∃ v, (m'.heap.members exports).get? "default" = some v ∧
              v.isCallable = true)
            fun m' => ∃ history, m'.loaders[0]? = some { l with history } := by
  intro p exports table
  have complete : table.1.map Prod.fst = HostPackage.all := PackageTable.packages_make _
  have isObject : exports.index < table.2.objects.size := by decide +kernel
  clear_value table
  have free : Sha256.CollisionFree ((ofConfig {}).contentsOf [(p, none)]) :=
    ⟨by decide +kernel, by decide +kernel⟩
  have checked : (((ofConfig {}).after []).compile p none).1.toOption.any (fun r =>
      (r.module? "/App.tsx").any fun m => decide (Linking.NamesApart m.executable.body.body) &&
        (Parsed.ofFile m.source).module?.any fun parsed =>
          parsed.functionKeys == ["default"]) = true := by
    decide +kernel
  cases compiled : (((ofConfig {}).after []).compile p none).1 with
  | error e =>
    rw [compiled] at checked
    cases checked
  | ok r =>
    rw [compiled, Except.toOption, Option.any_some] at checked
    obtain ⟨m, module, checked⟩ := (Option.any_eq_true _ _).1 checked
    obtain ⟨apart, keyed⟩ := (Bool.and_eq_true _ _).mp checked
    have apart := of_decide_eq_true apart
    obtain ⟨parsed, first, rest, read, whole, opens⟩ :=
      compile_exportsFunctions {} [] (p, none) free compiled module apart
    obtain ⟨parsed', read', keys⟩ := (Option.any_eq_true _ _).1 keyed
    obtain rfl : parsed' = parsed := Option.some.inj (read'.symm.trans read)
    refine ⟨free, r, m, rfl, module, apart, first, rest, whole, ?_⟩
    refine (opens 20 0 _ exports _ rfl complete isObject).mono
      (fun _ m' ended => ended.2.2 "default" ?_) fun _ unmoved => unmoved
    rw [eq_of_beq keys]
    exact List.mem_cons_self

/-- What another module exports under the name of a function of this one takes the function's place,
and a third module of the cycle sees that. -/
theorem not_sees_function :
    let p : Project := ⟨[("/App.tsx", "import './a';"),
      ("/a.ts", "export function f() \x7b return 1; \x7d\n" ++
        "export * from './b';\n" ++
        "export \x7b seen \x7d from './c';\n"),
      ("/b.ts", "export const f = 5;"),
      ("/c.ts", "import * as a from './a';\n" ++
        "export const seen = typeof a.f;")], "/App.tsx"⟩
    ∃ r, (((ofConfig {}).after []).compile p none).1 = .ok r ∧
      ∃ a m, (Evaluator.standard.require 0 "/a.ts" true).outcome
          { Machine.ofConfig {} with loaders := #[{ project := r, packages := [] }] } =
            (.ok (.object a), m) ∧
        (m.heap.members a).get? "seen" = some (.string "number") := by
  intro p
  have checked : (((ofConfig {}).after []).compile p none).1.toOption.any (fun r =>
      let run := (Evaluator.standard.require 0 "/a.ts" true).outcome
        { Machine.ofConfig {} with loaders := #[{ project := r, packages := [] }] }
      (run.1.toOption.bind Value.objectRef?).any fun a =>
        ((run.2.heap.members a).get? "seen").bind Value.text? = some "number") = true := by
    decide +kernel
  cases compiled : (((ofConfig {}).after []).compile p none).1 with
  | error e =>
    rw [compiled] at checked
    cases checked
  | ok r =>
    rw [compiled, Except.toOption, Option.any_some] at checked
    refine ⟨r, rfl, ?_⟩
    generalize (Evaluator.standard.require 0 "/a.ts" true).outcome _ = run at checked
    obtain ⟨answer, m⟩ := run
    obtain ⟨a, given, shown⟩ := (Option.any_eq_true _ _).1 checked
    obtain ⟨v, given, isObject⟩ := Option.bind_eq_some_iff.mp given
    obtain ⟨s, seen, isText⟩ := Option.bind_eq_some_iff.mp (of_decide_eq_true shown)
    obtain rfl := Value.objectRef?_eq_some.mp isObject
    obtain rfl := Value.text?_eq_some.mp isText
    cases answer with
    | error e => cases given
    | ok v =>
      cases given
      exact ⟨a, m, rfl, seen⟩

end Compiler

end TsxPreview
