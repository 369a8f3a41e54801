import TsxPreview.Proofs.Compile.Search
import TsxPreview.Proofs.Compile.Transparency
import TsxPreview.Proofs.Loading.Answers

/-!
Modules are evaluated once, in whatever order they are required, by whomever, and in cycles.
-/

namespace TsxPreview

open Script

/-! ## Runs -/

/-- Work of scripts on a loader. -/
inductive LoaderUse where
  | require (specifier : String) (all : Bool)
  /-- A call of what was exported, maybe. -/
  | call (fn this : Value) (args : List Value)

namespace LoaderUse

def perform (ev : Evaluator) (id : Nat) : LoaderUse → Script Value
  | require specifier all => ev.require id specifier all
  | call fn this args => ev.call fn this args

/-- What uses give that are made one after another, and what they leave. -/
def outcomes (ev : Evaluator) (id : Nat) :
    List LoaderUse → Machine → List (Except ScriptError Value) × Machine
  | [], m => ([], m)
  | use :: rest, m =>
    let (r, m) := (use.perform ev id).outcome m
    let (rs, m) := outcomes ev id rest m
    (r :: rs, m)

end LoaderUse

namespace Loader

/-- Nothing was evaluated twice, and everything was answered accordingly. -/
structure EvaluatedOnce (l : Loader) : Prop where
  begun_le_one : ∀ path, l.begun path ≤ 1
  counted : ∀ path, l.count path = l.begun path
  count_eq_one : ∀ path, l.count path = 1 ↔ path ∈ l.loaded
  answers : ∀ specifier all answer, .answered specifier all answer ∈ l.history →
    l.Answers specifier all answer

theorem mem_loaded {l : Loader} {path : String} :
    path ∈ l.loaded ↔ (l.records.lookup path).isSome = true := by
  constructor
  · intro mem
    obtain ⟨exports, eq⟩ := lookup_of_mem_keys mem
    rw [eq]
    rfl
  · intro known
    obtain ⟨exports, eq⟩ := Option.isSome_iff_exists.mp known
    exact List.mem_map.mpr ⟨_, mem_of_lookup eq, rfl⟩

theorem failures_eq_zero {l : Loader} {path : String} (h : .failed path ∉ l.history) :
    l.failures path = 0 := by
  unfold failures
  rw [List.countP_eq_zero]
  intro e mem
  cases e with
  | failed p =>
    simp only [LoaderEvent.isFailed, LoaderEvent.failure?, beq_iff_eq, Option.some.injEq]
    rintro rfl
    exact h mem
  | _ => simp [LoaderEvent.isFailed, LoaderEvent.failure?]

theorem not_fails {l : Loader} {specifier : String} (h : .failed specifier ∉ l.history) :
    ¬l.Fails specifier := by
  intro fails
  have failed := fails.failed
  rw [failures_eq_zero h] at failed
  exact Nat.lt_irrefl 0 failed

/-- If no module raised an error, a sound loader has evaluated each once at most. -/
theorem Sound.evaluatedOnce {l : Loader} (h : l.Sound)
    (healthy : ∀ path, .failed path ∉ l.history) : l.EvaluatedOnce := by
  have begun (path : String) : l.begun path = (l.records.lookup path).isSome.toNat := by
    rw [h.balanced, failures_eq_zero (healthy path), Nat.zero_add]
  refine ⟨fun path => ?_, h.counted, fun path => ?_, fun specifier all answer mem => ?_⟩
  · rw [begun]
    exact Bool.toNat_le _
  · rw [h.counted, begun, mem_loaded, Bool.toNat_eq_one]
  · exact (h.answered specifier all answer mem).resolve_right (not_fails (healthy specifier))

/-- A loader that was not asked anything yet. -/
theorem sound_new {project : CompiledProject} (keyed : project.Keyed)
    (packages : List (HostPackage × Value)) : Sound { project, packages } :=
  ⟨keyed, nofun, fun _ => rfl, fun _ => rfl, nofun⟩

theorem Evolves.ends {l l' : Loader} (h : l.Evolves l') {specifier : String}
    {answer : Except ScriptError Value} (ends : l.Ends specifier answer) :
    l'.Ends specifier answer where
  other := by
    unfold container?
    rw [h.packages]
    exact ends.other
  found := h.project ▸ ends.found
  ended := ends.ended

end Loader

namespace LoaderUse

open Loader

variable {ev : Evaluator} {id : Nat}

theorem within_perform (hev : ev.Within (Steps id)) (use : LoaderUse) :
    Script.Within (Steps id) (use.perform ev id) := by
  cases use with
  | require specifier all => exact Evaluator.require_within hev id specifier all
  | call fn this args => exact hev.call fn this args

/-- A loader evolves over all uses, and what each require gave was noted, unless the run ended. -/
theorem outcomes_noted (hev : ev.Within (Steps id)) (uses : List LoaderUse) {m : Machine}
    {l : Loader} (there : m.loaders[id]? = some l) (sound : l.Sound) :
    ∃ l', (outcomes ev id uses m).2.loaders[id]? = some l' ∧ l.Evolves l' ∧
      ∀ (i : Nat) specifier all, uses[i]? = some (.require specifier all) →
        ∃ r, (outcomes ev id uses m).1[i]? = some r ∧
          (.answered specifier all r ∈ l'.history ∨ l'.Ends specifier r) := by
  induction uses generalizing m l with
  | nil => exact ⟨l, there, sound.evolves, nofun⟩
  | cons use rest ih =>
    obtain ⟨l₁, there₁, evolves₁⟩ := (within_perform hev use m).evolves l there sound
    have noted : ∀ specifier all, use = .require specifier all →
        .answered specifier all ((use.perform ev id).outcome m).1 ∈ l₁.history ∨
          l₁.Ends specifier ((use.perform ev id).outcome m).1 := by
      rintro specifier all rfl
      obtain ⟨r, m', l', eq, there', -, noted⟩ :=
        Evaluator.require_noted hev there sound specifier all
      rw [perform, eq] at there₁ ⊢
      rw [there'] at there₁
      cases there₁
      exact noted
    unfold outcomes
    generalize (use.perform ev id).outcome m = first at there₁ noted
    obtain ⟨r, m₁⟩ := first
    obtain ⟨l', there', evolves', rest'⟩ := ih there₁ evolves₁.sound
    refine ⟨l', there', evolves₁.trans evolves', fun i specifier all at_ => ?_⟩
    cases i with
    | zero =>
      exact ⟨r, rfl, (noted specifier all (Option.some.inj at_)).imp (evolves'.history.mem ·)
        evolves'.ends⟩
    | succ i => exact rest' i specifier all at_

end LoaderUse

namespace Compiler

/-- Without collisions, the modules of a compiled project stand under their paths. -/
theorem compile_keyed (config : Config) (calls : List Call) (call : Call)
    (free : Sha256.CollisionFree ((ofConfig config).contentsOf (call :: calls)))
    {r : CompiledProject}
    (compiled : (((ofConfig config).after calls).compile call.1 call.2).1 = .ok r) : r.Keyed := by
  intro path m module
  obtain ⟨text, got, made, -⟩ := compile_modules compiled module
  exact (made.linked_eq free (mem_contentsOf _ List.mem_cons_self got)).2.1

end Compiler

end TsxPreview
