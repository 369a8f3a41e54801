import TsxPreview.Proofs.Loading.History
import TsxPreview.Proofs.Script.Levels

/-!
What requests for modules give. Whatever scripts do, a loader that is sound stays so, and answers for
each specifier with one container.
-/

namespace TsxPreview

open Script

namespace Loader

/-! ## Loaders while scripts run -/

/-- The loader with a number evolves, if it is sound. -/
structure Steps (id : Nat) (m m' : Machine) : Prop where
  hooks : m.realm.hooks.Reaches m'.realm.hooks
  evolves : ∀ l, m.loaders[id]? = some l → l.Sound →
    ∃ l', m'.loaders[id]? = some l' ∧ l.Evolves l'

theorem steady_steps (id : Nat) : Steady (Steps id) where
  refl _ := ⟨.refl, fun l there sound => ⟨l, there, sound.evolves⟩⟩
  trans first second := by
    refine ⟨first.hooks.trans second.hooks, fun l there sound => ?_⟩
    obtain ⟨l₁, there₁, evolves₁⟩ := first.evolves l there sound
    obtain ⟨l₂, there₂, evolves₂⟩ := second.evolves l₁ there₁ evolves₁.sound
    exact ⟨l₂, there₂, evolves₁.trans evolves₂⟩
  heap _ _ := ⟨.refl, fun l there sound => ⟨l, there, sound.evolves⟩⟩
  realm _ _ change _ := ⟨.single change, fun l there sound => ⟨l, there, sound.evolves⟩⟩
  reaches h := h.hooks

theorem outcome_update (id : Nat) (f : Loader → Loader) (m : Machine) :
    (update id f).outcome m = (.ok (), { m with loaders := m.loaders.modify id f }) := rfl

theorem getElem?_modify_self {loaders : Array Loader} {id : Nat} {l : Loader}
    (there : loaders[id]? = some l) (f : Loader → Loader) :
    (loaders.modify id f)[id]? = some (f l) := by
  rw [Array.getElem?_modify, if_pos rfl, there]
  rfl

theorem within_update_of_ne {id other : Nat} (h : other ≠ id) (f : Loader → Loader) :
    Within (Steps id) (update other f) := by
  intro m
  refine ⟨.refl, fun l there sound => ⟨l, ?_, sound.evolves⟩⟩
  rw [outcome_update]
  show (m.loaders.modify other f)[id]? = some l
  rw [Array.getElem?_modify, if_neg h, there]

end Loader

namespace Evaluator

open Loader

variable {ev : Evaluator} {id : Nat} {m : Machine} {l : Loader} {specifier : String}

/-- The evaluation of a module gives its container, unless the module failed. -/
theorem evaluateModule_answers (hev : ev.Within (Steps id)) (there : m.loaders[id]? = some l)
    (sound : l.Sound) (other : l.container? specifier = none)
    (fresh : l.records.lookup specifier = none) {module : CompiledModule}
    (found : l.project.module? specifier = some module) (body : List Stmt) :
    ∃ r m' l', (ev.evaluateModule id specifier body).outcome m = (r, m') ∧
      m'.loaders[id]? = some l' ∧ l.Evolves l' ∧
      (l'.Answers specifier true r ∨ l'.Fails specifier ∨ l'.Ends specifier r) := by
  unfold evaluateModule
  rw [outcome_bind, show (liftM (Alloc.objectRef .empty) : Script ObjectRef).outcome m =
    (.ok (m.heap.newObject .empty).1, { m with heap := (m.heap.newObject .empty).2 }) from rfl]
  generalize (m.heap.newObject .empty).1 = exports
  generalize (m.heap.newObject .empty).2 = heap
  dsimp only
  rw [outcome_bind, outcome_update]
  -- the module is known while its body runs
  have begins := sound.begin fresh (by rw [found]; rfl) exports
  have there₁ := getElem?_modify_self there (·.begin specifier exports)
  generalize m.loaders.modify id (·.begin specifier exports) = loaders at there₁
  dsimp only
  obtain ⟨scope, heap, inScope⟩ :=
    outcome_moduleScope id exports { m with heap := heap, loaders := loaders }
  rw [outcome_bind, inScope]
  dsimp only
  rw [outcome_bind, outcome_attempt]
  obtain ⟨l₂, there₂, evolves⟩ := ((made_execModule specifier body scope).within
    (steady_steps id) hev ⟨heap, m.realm, loaders⟩).evolves _ there₁ begins.sound
  have known : l₂.records.lookup specifier = some exports :=
    evolves.records _ _ (by rw [lookup_begin, if_pos rfl])
  have whole := begins.trans evolves
  have other₂ : l₂.container? specifier = none := by
    unfold Loader.container?
    rw [whole.packages]
    exact other
  have found₂ : l₂.project.module? specifier = some module := by rw [whole.project, found]
  have isSome : (l₂.project.module? specifier).isSome = true := by rw [found₂]; rfl
  generalize (ev.execModule specifier body scope).outcome ⟨heap, m.realm, loaders⟩ = r at there₂
  obtain ⟨e | done, m₂⟩ := r
  · dsimp only at there₂ ⊢
    by_cases ended : e.endsRun = true
    · rw [if_pos ended]
      exact ⟨_, _, l₂, rfl, there₂, whole, .inr (.inr ⟨other₂, isSome, e, rfl, ended⟩)⟩
    · rw [if_neg ended]
      exact ⟨_, { m₂ with loaders := m₂.loaders.modify id (·.forget specifier) },
        l₂.forget specifier, rfl, getElem?_modify_self there₂ _,
        whole.forget fresh (evolves.sound.forget known other₂ isSome),
        .inr (.inl (fails_forget other₂ isSome))⟩
  · exact ⟨_, m₂, l₂, rfl, there₂, whole,
      .inl (.module other₂ found₂ fun _ => ⟨exports, rfl, known⟩)⟩

/-- The exports of a specifier are the one container of what it names, unless the module failed. -/
theorem exportsOf_answers (hev : ev.Within (Steps id)) (there : m.loaders[id]? = some l)
    (sound : l.Sound) (specifier : String) :
    ∃ r m' l', (ev.exportsOf id specifier).outcome m = (r, m') ∧
      m'.loaders[id]? = some l' ∧ l.Evolves l' ∧
      (l'.Answers specifier true r ∨ l'.Fails specifier ∨ l'.Ends specifier r) := by
  unfold exportsOf
  rw [outcome_bind, show (get : Script Machine).outcome m = (.ok m, m) from rfl]
  dsimp only
  rw [there]
  dsimp only
  cases container : PackageTable.container? l.packages specifier with
  | some v => exact ⟨_, m, l, rfl, there, sound.evolves, .inl (.package container fun _ => rfl)⟩
  | none =>
    dsimp only
    cases known : l.records.lookup specifier with
    | some exports =>
      -- only modules have records
      obtain ⟨module, found⟩ := Option.isSome_iff_exists.mp (sound.modules _ _ known)
      exact ⟨_, m, l, rfl, there, sound.evolves,
        .inl (.module container found fun _ => ⟨exports, rfl, known⟩)⟩
    | none =>
      dsimp only
      cases found : l.project.module? specifier with
      | some module =>
        dsimp only
        rw [sound.keyed specifier module found]
        exact evaluateModule_answers hev there sound container known found _
      | none => exact ⟨_, m, l, rfl, there, sound.evolves, .inl (.missing container found)⟩

/-- What `require` gives is noted, unless the run ended. -/
theorem require_noted (hev : ev.Within (Steps id)) (there : m.loaders[id]? = some l)
    (sound : l.Sound) (specifier : String) (all : Bool) :
    ∃ r m' l', (ev.require id specifier all).outcome m = (r, m') ∧
      m'.loaders[id]? = some l' ∧ l.Evolves l' ∧
      (.answered specifier all r ∈ l'.history ∨ l'.Ends specifier r) := by
  obtain ⟨r, m₁, l₁, eq, there₁, evolves, settled⟩ := exportsOf_answers hev there sound specifier
  -- what is noted
  have noted {answer : Except ScriptError Value}
      (right : l₁.Answers specifier all answer ∨ l₁.Fails specifier) :
      ∃ l', (m₁.loaders.modify id (·.note (.answered specifier all answer)))[id]? = some l' ∧
        l.Evolves l' ∧ .answered specifier all answer ∈ l'.history := by
    exact ⟨l₁.note (.answered specifier all answer), getElem?_modify_self there₁ _,
      evolves.trans (evolves.sound.note right), List.mem_cons_self⟩
  unfold require
  rw [outcome_bind, outcome_attempt, outcome_bind, eq]
  obtain e | v := r
  · dsimp only
    by_cases ended : e.endsRun = true
    · rw [if_pos ended]
      refine ⟨_, m₁, l₁, rfl, there₁, evolves, .inr ?_⟩
      obtain answers | fails | ends := settled
      · cases answers
        cases ended
      · exact ⟨fails.other, fails.found, e, rfl, ended⟩
      · exact ends
    · rw [if_neg ended]
      have right : l₁.Answers specifier all (.error e) ∨ l₁.Fails specifier := by
        obtain answers | fails | ⟨-, -, e', same, ended'⟩ := settled
        · exact .inl answers.error
        · exact .inr fails
        · cases same
          exact absurd ended' ended
      obtain ⟨l', there', evolves', mem⟩ := noted right
      exact ⟨_, _, l', rfl, there', evolves', .inl mem⟩
  · obtain ⟨v', chosen, whole⟩ := outcome_chosenExports all v m₁
    dsimp only
    rw [chosen]
    have right : l₁.Answers specifier all (.ok v') ∨ l₁.Fails specifier := by
      obtain answers | fails | ⟨-, -, e, same, -⟩ := settled
      · exact .inl (answers.chosen whole)
      · exact .inr fails
      · cases same
    obtain ⟨l', there', evolves', mem⟩ := noted right
    exact ⟨_, _, l', rfl, there', evolves', .inl mem⟩

/-- Requests to other loaders leave a loader alone. -/
theorem require_within (hev : ev.Within (Steps id)) (number : Nat) (specifier : String)
    (all : Bool) : Script.Within (Steps id) (ev.require number specifier all) := by
  by_cases own : number = id
  · subst own
    intro m
    refine ⟨within_require steady_reaches ?_ (fun _ _ => .refl) specifier all m, ?_⟩
    · exact ⟨fun e scope m => (hev.eval e scope m).hooks, fun s scope m => (hev.exec s scope m).hooks,
        fun fn this args m => (hev.call fn this args m).hooks⟩
    · intro l there sound
      obtain ⟨r, m', l', eq, there', evolves, -⟩ := require_noted hev there sound specifier all
      rw [eq]
      exact ⟨l', there', evolves⟩
  · exact within_require (steady_steps id) hev (fun f => within_update_of_ne own f) specifier all

theorem requireCall_within (ev : Evaluator) (hev : ev.Within (Steps id)) (number : Nat)
    (args : List Value) : Script.Within (Steps id) (ev.requireCall number args) :=
  within_requireCall (steady_steps id) args (require_within hev number)

end Evaluator

end TsxPreview
