import Mathlib.Logic.Relation
import TsxPreview.Proofs.Hooks.Calls
import TsxPreview.Proofs.Hooks.Notes
import TsxPreview.Proofs.Script.Made

/-!
What scripts can do to the store of slots, whatever they are. They call hooks, and they set state.
They enter and leave no instance, they run no effect, and they drop nothing.
-/

namespace TsxPreview

/-- The hooks whose functions run after the pass. -/
def Hook.isEffect : Hook → Bool
  | useEffect | useLayoutEffect => true
  | _ => false

namespace HookStore

/-- The instances that are being rendered, innermost first. -/
def openKeys (s : HookStore) : List String := s.frames.map Frame.key

/-- The cleanup that the effect of a place has left. -/
def cleanupAt (s : HookStore) (place : String × Nat) : Option Value :=
  (s.slot? place.1 place.2).bind HookSlot.cleanup?

/-- The innermost instance has called a hook at a place. -/
structure Holds (s : HookStore) (place : String × Nat) (hook : Hook) : Prop where
  called : .called place hook ∈ s.history
  innermost : s.openKeys.head? = some place.1

/-- A single change that scripts make. -/
inductive Change : HookStore → HookStore → Prop
  | keep {s s' : HookStore} (h : s.Keeps s') : Change s s'
  | claim {s : HookStore} {f : Frame} {rest : List Frame} (hf : s.frames = f :: rest)
      (hook : Hook) : Change s (s.claimed hook f rest)
  /-- A hook writes at its place. What an effect left there stays. -/
  | put {s : HookStore} {place : String × Nat} {hook : Hook} {content : HookSlot}
      (held : s.Holds place hook) (kind : hook.keeps content = true)
      (carried : hook.isEffect = true → content.cleanup? = s.cleanupAt place) :
      Change s (s.store place.1 place.2 content)
  | queue {s : HookStore} {e : PendingEffect} {hook : Hook} (held : s.Holds (e.key, e.slot) hook)
      (kind : hook.isEffect = true) : Change s { s with pending := s.pending ++ [e] }
  | set {s : HookStore} {key : String} {i : Nat} {old new : HookSlot}
      (found : s.slot? key i = some old) (updated : old.Updated new)
      (carried : new.cleanup? = old.cleanup?) : Change s (s.update (key, i) new)

/-- What scripts make of a store. -/
abbrev Reaches : HookStore → HookStore → Prop := Relation.ReflTransGen Change

variable {s s' : HookStore}

/-! ## What changes leave -/

theorem Change.openKeys (h : s.Change s') : s'.openKeys = s.openKeys := by
  cases h with
  | keep h => exact congrArg (List.map Frame.key) h.frames
  | claim hf hook =>
    unfold HookStore.openKeys
    rw [hf]
    rfl
  | put | queue | set => rfl

theorem Change.visited (h : s.Change s') : s'.visited = s.visited := by
  cases h with
  | keep h => exact h.visited
  | claim | put | queue | set => rfl

theorem Change.providers (h : s.Change s') : s'.providers = s.providers := by
  cases h with
  | keep h => exact h.providers
  | claim | put | queue | set => rfl

/-- Calls of hooks are all that is noted. -/
theorem Change.history (h : s.Change s') :
    s'.history = s.history ∨ ∃ place hook, s'.history = .called place hook :: s.history := by
  cases h with
  | keep h => exact .inl h.history
  | claim hf hook => exact .inr ⟨_, hook, rfl⟩
  | put | queue | set => exact .inl rfl

theorem Reaches.openKeys (h : s.Reaches s') : s'.openKeys = s.openKeys := by
  induction h with
  | refl => rfl
  | tail _ step ih => exact step.openKeys.trans ih

theorem Reaches.visited (h : s.Reaches s') : s'.visited = s.visited := by
  induction h with
  | refl => rfl
  | tail _ step ih => exact step.visited.trans ih

theorem Reaches.providers (h : s.Reaches s') : s'.providers = s.providers := by
  induction h with
  | refl => rfl
  | tail _ step ih => exact step.providers.trans ih

theorem Reaches.history (h : s.Reaches s') :
    ∃ calls, s'.history = calls ++ s.history ∧ ∀ n ∈ calls, n.IsCall := by
  induction h with
  | refl => exact ⟨[], rfl, fun _ hn => by cases hn⟩
  | tail _ step ih =>
    obtain ⟨calls, eq, only⟩ := ih
    obtain same | ⟨place, hook, more⟩ := step.history
    · exact ⟨calls, same.trans eq, only⟩
    · refine ⟨.called place hook :: calls, by rw [more, eq, List.cons_append], ?_⟩
      exact List.forall_mem_cons.2 ⟨⟨place, hook, rfl⟩, only⟩

theorem Holds.reaches {place : String × Nat} {hook : Hook} (h : s.Holds place hook)
    (hr : s.Reaches s') : s'.Holds place hook := by
  obtain ⟨calls, eq, -⟩ := hr.history
  exact ⟨eq ▸ List.mem_append_right _ h.called, hr.openKeys ▸ h.innermost⟩

end HookStore

end TsxPreview
