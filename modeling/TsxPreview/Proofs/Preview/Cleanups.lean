import TsxPreview.Proofs.Hooks.Reckoning
import TsxPreview.Proofs.Preview.Uses

/-!
Cleanups of whole previews. From the mount of a project over all that is done with the preview to its
end, every cleanup that an effect gives is called once: right before the effect runs again, or when
its instance has left the tree, or at the end.
-/

namespace TsxPreview

open HookNote

/-! ## Fair logs -/

/-- Whether two notes do not say that different hooks were called at one place. -/
def HookNote.agrees : HookNote → HookNote → Bool
  | .called place hook, .called other hook' => place != other || hook == hook'
  | _, _ => true

def HookNote.isRaised : HookNote → Bool
  | .raised _ => true
  | _ => false

instance (notes : List HookNote) : Decidable (SameHooks notes) :=
  decidable_of_iff (∀ a ∈ notes, ∀ b ∈ notes, a.agrees b = true) <| by
    constructor
    · intro h place hook hook' ha hb
      simpa [agrees] using h _ ha _ hb
    · intro h a ha b hb
      cases a with
      | called place hook =>
        cases b with
        | called other hook' =>
          by_cases eq : place = other
          · subst eq
            simpa [agrees] using h place hook hook' ha hb
          · simp [agrees, eq]
        | _ => rfl
      | _ => rfl

instance (notes : List HookNote) : Decidable (NothingRaised notes) :=
  decidable_of_iff (∀ n ∈ notes, n.isRaised = false) <| by
    constructor
    · intro h place hr
      cases h _ hr
    · intro h n hn
      cases n with
      | raised place => exact absurd hn (h place)
      | _ => rfl

theorem SameHooks.of_reverse {notes : List HookNote} (h : SameHooks notes.reverse) :
    SameHooks notes := fun place hook hook' h₁ h₂ =>
  h place hook hook' (List.mem_reverse.2 h₁) (List.mem_reverse.2 h₂)

theorem NothingRaised.of_reverse {notes : List HookNote} (h : NothingRaised notes.reverse) :
    NothingRaised notes := fun place hr => h place (List.mem_reverse.2 hr)

/-! ## Accounts of previews -/

namespace HookStore

/-- Notes are only added, and accounts are kept as long as the notes are fair. -/
structure Kept (s s' : HookStore) : Prop where
  grows : s.history <:+ s'.history
  balanced : Hook.Balanced s → Fair s'.history → Hook.Balanced s'

theorem Kept.trans {a b c : HookStore} (h : a.Kept b) (h' : b.Kept c) : a.Kept c where
  grows := h.grows.trans h'.grows
  balanced start fair := h'.balanced (h.balanced start (fair.of_suffix h'.grows)) fair

/-- What is not about slots and notes nothing. -/
theorem Kept.of_eq {s s' : HookStore} (hs : s'.slots = s.slots) (hh : s'.history = s.history)
    (hp : s'.pending = s.pending) : s.Kept s' where
  grows := hh ▸ List.suffix_rfl
  balanced h _ := ⟨h.1.congr hs hh fun _ he => hp ▸ he, hh ▸ h.2⟩

theorem steady_kept : HookStore.Steady Kept where
  trans := Kept.trans
  reaches hr := ⟨hr.suffix, fun h fair =>
    ⟨(h.1.reaches hr fair.sameHooks).1, fun place => hr.phase ▸ h.2 place⟩⟩
  enter _ _ := .of_eq rfl rfl rfl
  leave _ := .of_eq rfl rfl rfl
  pushProvider _ _ _ := .of_eq rfl rfl rfl
  popProvider _ := .of_eq rfl rfl rfl

end HookStore

open HookStore

/-- An error that is noted ends what may be said of accounts. -/
theorem Script.Reckons.within_kept {α : Type} {x : Script α}
    (h : Script.Reckons Hook.Balanced x fun _ => Hook.Balanced) :
    Script.Within (fun m m' => m.realm.hooks.Kept m'.realm.hooks) x :=
  Script.within_iff_ends.mpr fun m =>
    (h m).mono (fun _ _ k => ⟨k.1, k.2⟩) (fun _ k => ⟨k.1, fun start fair => absurd fair (k.2 start)⟩)

theorem enduring_kept : HookStore.Enduring Evaluator.standard Kept where
  toSteady := steady_kept
  sweep := (Hook.sweep_reckons Evaluator.reaches_standard).within_kept
  effects := (Hook.runPending_reckons Evaluator.reaches_standard).within_kept
  beginPass _ := .of_eq rfl rfl rfl

theorem balanced_empty : Hook.Balanced {} where
  left := {
    sound := trivial
    names := List.nodup_nil
    owes := fun place c => by
      constructor
      · intro h
        cases h
      · rintro (h | h) <;> cases h
    apart := List.nodup_nil
    taken := fun d hd => by cases hd
    effects := fun place c h => by cases h
    queued := fun e he => by cases he }
  right := fun place h => by cases h

/-- Whether a note says that a cleanup was called for a cause. -/
def HookNote.isCleanup (cause : CleanupCause) : HookNote → Bool
  | .cleaned _ _ other => other = cause
  | _ => false

end TsxPreview
