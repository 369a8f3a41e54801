import TsxPreview.Proofs.Hooks.Effects
import TsxPreview.Proofs.Preview.Instances

/-!
Setters and dispatchers after their instance has left the tree. They are kept by name: each knows the
key of its instance and the number of its slot. While nothing is known by that key they do nothing.
-/

namespace TsxPreview

open HookStore

variable {key : String} {s s' s'' : HookStore}

/-! ## Setters without a slot -/

namespace Hook

/-- The setter and the dispatcher of a place do nothing, whatever they are given. -/
def Inert (place : String × Nat) (m : Machine) : Prop :=
  ∀ ev v, setState ev place.1 place.2 v m = .ok .undefined m ∧
    dispatch ev place.1 place.2 v m = .ok .undefined m

variable {m : Machine} {i : Nat}

theorem slotAt_bind_apply {α : Type} (place : String × Nat) (f : Option HookSlot → Script α)
    (m : Machine) : (slotAt place >>= f) m = f (m.realm.hooks.slot? place.1 place.2) m := rfl

theorem inert_of_none (gone : m.realm.hooks.slot? key i = none) : Inert (key, i) m := by
  intro ev v
  constructor
  · unfold setState
    rw [slotAt_bind_apply, gone]
    rfl
  · unfold dispatch
    rw [slotAt_bind_apply, gone]
    rfl

/-- The setter of a state that is there writes the next one and asks for a pass. -/
theorem setState_of_state {ev : Evaluator} {current setter next : Value}
    (found : m.realm.hooks.slot? key i = some (.state current setter))
    (plain : next.isCallable = false) (other : next.is current = false) :
    setState ev key i next m =
      .ok .undefined { m with realm.hooks := m.realm.hooks.update (key, i) (.state next setter) } := by
  unfold setState
  rw [slotAt_bind_apply, found]
  dsimp only
  rw [plain, if_neg Bool.false_ne_true, pure_bind, other, Bool.not_false, if_pos rfl,
    slotAt_bind_apply, found]
  rfl

end Hook

/-! ## Passes that do not visit an instance -/

namespace HookStore

/-- Work after which an instance that it does not visit is not rendered and not there. -/
structure Bypasses (key : String) (s s' : HookStore) : Prop where
  visited : s.visited <:+ s'.visited
  away : key ∉ s'.visited → key ∉ s.openKeys → key ∉ s'.openKeys ∧ Away key s s'

theorem Bypasses.trans (h : Bypasses key s s') (h' : Bypasses key s' s'') :
    Bypasses key s s'' where
  visited := h.visited.trans h'.visited
  away unseen closed := by
    obtain ⟨closed', away⟩ := h.away (fun seen => unseen (h'.visited.mem seen)) closed
    obtain ⟨closed'', away'⟩ := h'.away unseen closed'
    exact ⟨closed'', away.trans away'⟩

theorem head?_openKeys_ne (closed : key ∉ s.openKeys) : s.openKeys.head? ≠ some key :=
  fun innermost => closed (List.mem_of_mem_head? innermost)

theorem Reaches.bypasses (h : s.Reaches s') : Bypasses key s s' where
  visited := h.visited ▸ List.suffix_rfl
  away _ closed := ⟨h.openKeys ▸ closed, h.away (head?_openKeys_ne closed)⟩

theorem Tended.bypasses {cleaned : List ((String × Nat) × Value)} (h : Tended cleaned s s') :
    Bypasses key s s' where
  visited := h.visited ▸ List.suffix_rfl
  away _ closed := ⟨h.openKeys ▸ closed, h.away key (head?_openKeys_ne closed)⟩

theorem bypasses_sweep (key : String) (s : HookStore) : Bypasses key s s.sweep.2 where
  visited := List.suffix_rfl
  away _ closed := by
    refine ⟨closed, .of_updates (fun none => ?_) rfl⟩
    rw [get?_sweep, none, ite_self]

theorem lasting_bypasses (key : String) : Lasting Evaluator.standard (Bypasses key) where
  trans := Bypasses.trans
  reaches := Reaches.bypasses
  enter s other := {
    visited := List.suffix_cons _ _
    away := fun unseen closed => by
      refine ⟨fun there => ?_, .of_updates id rfl⟩
      obtain rfl | there := List.mem_cons.1 there
      · exact unseen List.mem_cons_self
      · exact closed there }
  leave s := {
    visited := List.suffix_rfl
    away := fun _ closed => by
      refine ⟨fun there => closed ?_, .of_updates id rfl⟩
      unfold HookStore.openKeys leave at there
      rw [List.map_tail] at there
      exact List.mem_of_mem_tail there }
  pushProvider _ _ _ := ⟨List.suffix_rfl, fun _ closed => ⟨closed, .of_updates id rfl⟩⟩
  popProvider _ := ⟨List.suffix_rfl, fun _ closed => ⟨closed, .of_updates id rfl⟩⟩
  sweep := Script.within_iff_ends.2 fun m => by
    have swept := bypasses_sweep key m.realm.hooks
    refine (Hook.sweep_tends Evaluator.reaches_standard m).mono
      (fun _ _ h => swept.trans h.bypasses) ?_
    rintro m' ⟨_, h⟩
    exact swept.trans h.bypasses
  effects := Script.within_iff_ends.2 fun m => by
    refine (Hook.tends_runPending Evaluator.reaches_standard m).mono (fun _ _ h => h.bypasses) ?_
    rintro m' ⟨_, h⟩
    exact h.bypasses

end HookStore

namespace Render

/-- What may happen while nothing is known by a key: scripts run, and passes that visit no such
instance, whether or not they end well. -/
inductive Elsewhere (key : String) : HookStore → HookStore → Prop
  | scripts {s s' : HookStore} (h : s.Reaches s') : Elsewhere key s s'
  | pass {container : NodeId} {root : Value} {m m' : Stage} {r : Except ScriptError Scene}
      (run : (pass Evaluator.standard container root).outcome m = (r, m'))
      (unseen : key ∉ m'.machine.realm.hooks.visited) :
      Elsewhere key m.machine.realm.hooks m'.machine.realm.hooks

theorem Elsewhere.away (h : Elsewhere key s s') (closed : key ∉ s.openKeys) :
    key ∉ s'.openKeys ∧ Away key s s' := by
  cases h with
  | scripts h => exact ⟨h.openKeys ▸ closed, h.away (head?_openKeys_ne closed)⟩
  | @pass container root m m' r run unseen =>
    have passed := within_begun (lasting_bypasses key) Evaluator.reaches_standard container root m
    rw [run] at passed
    obtain ⟨closed', away⟩ := passed.away unseen List.not_mem_nil
    exact ⟨closed', (Away.of_updates id rfl).trans away⟩

theorem away_of_elsewhere (h : Relation.ReflTransGen (Elsewhere key) s s')
    (closed : key ∉ s.openKeys) : key ∉ s'.openKeys ∧ Away key s s' := by
  induction h with
  | refl => exact ⟨closed, .refl key s⟩
  | tail _ step ih =>
    obtain ⟨closed', away⟩ := ih
    obtain ⟨closed'', away'⟩ := step.away closed'
    exact ⟨closed'', away.trans away'⟩

/-- What the setters and dispatchers of an instance do after it has left the tree. -/
structure Stale (key : String) (left : HookStore) : Prop where
  /-- As long as nothing is mounted again under the key, they have set no state and asked for no
  pass, and they do nothing. -/
  inert : ∀ s, Relation.ReflTransGen (Elsewhere key) left s →
    ∀ i, left.Still s (key, i) ∧ ∀ m : Machine, m.realm.hooks = s → Hook.Inert (key, i) m
  /-- A state that is there again is theirs to set. -/
  live : ∀ ev (m : Machine) i current setter next,
    m.realm.hooks.slot? key i = some (.state current setter) → next.isCallable = false →
    next.is current = false → Hook.setState ev key i next m =
      .ok .undefined { m with realm.hooks := m.realm.hooks.update (key, i) (.state next setter) }

/-- The setters of an instance that a pass has dropped do nothing until an instance is mounted again
under its key, and no longer. -/
theorem pass_stale {container : NodeId} {root : Value} {m m' : Stage} {A : Scene}
    (run : (pass Evaluator.standard container root).outcome m = (.ok A, m'))
    (gone : key ∉ A.keys rootPosition) : Stale key m'.machine.realm.hooks where
  inert s since i := by
    have passed := pass_passed Evaluator.reaches_standard run
    have closed : key ∉ m'.machine.realm.hooks.openKeys := by
      rw [passed.openKeys]
      exact List.not_mem_nil
    obtain ⟨none, still⟩ := (away_of_elsewhere since closed).2 (passed.dropped key gone)
    refine ⟨still i, fun m eq => Hook.inert_of_none ?_⟩
    unfold slot?
    rw [eq, none]
    rfl
  live _ _ _ _ _ _ found plain other := Hook.setState_of_state found plain other

/-- A component with a state that starts as a text. -/
def stateful : Alloc Value := do
  let component ← Alloc.native (.bound (← Alloc.native (.hook .useState)) .undefined [.string "a"])
  Alloc.element (.component component) .empty none

/-- Whether a tree, nothing and the tree again are shown, and pass a check. -/
def shownAgain (tree : Alloc Value) (check : Scene × Stage → Scene × Stage → Scene × Stage → Bool) :
    Bool :=
  match passOn (blank tree).2 (blank tree).1 with
  | (.ok A, m₁) =>
    match passOn m₁ .null with
    | (.ok B, m₂) =>
      match passOn m₂ (blank tree).1 with
      | (.ok C, m₃) => check (A, m₁) (B, m₂) (C, m₃)
      | _ => false
    | _ => false
  | _ => false

theorem exists_of_shownAgain {tree : Alloc Value}
    {check : Scene × Stage → Scene × Stage → Scene × Stage → Bool}
    (h : shownAgain tree check = true) :
    ∃ A m₁ B m₂ C m₃, passOn (blank tree).2 (blank tree).1 = (.ok A, m₁) ∧
      passOn m₁ .null = (.ok B, m₂) ∧ passOn m₂ (blank tree).1 = (.ok C, m₃) ∧
      check (A, m₁) (B, m₂) (C, m₃) = true := by
  unfold shownAgain at h
  split at h
  · rename_i A m₁ first
    split at h
    · rename_i B m₂ second
      split at h
      · rename_i C m₃ third
        exact ⟨A, m₁, B, m₂, C, m₃, first, second, third, h⟩
      · cases h
    · cases h
  · cases h

theorem pass_stale_dropped :
    ∃ A m₁ B m₂ key, passOn (blank stateful).2 (blank stateful).1 = (.ok A, m₁) ∧
      passOn m₁ .null = (.ok B, m₂) ∧ A.keys rootPosition = [key] ∧ key ∉ B.keys rootPosition ∧
      Stale key m₂.machine.realm.hooks := by
  obtain ⟨A, m₁, B, m₂, -, -, first, second, -, checked⟩ := exists_of_shownAgain
    (show shownAgain stateful (fun A B _ =>
      (A.1.keys rootPosition).length = 1 ∧ B.1.keys rootPosition = []) = true by decide +kernel)
  obtain ⟨one, none⟩ := of_decide_eq_true checked
  obtain ⟨key, one⟩ := List.length_eq_one_iff.1 one
  have gone : key ∉ B.keys rootPosition := by
    rw [none]
    exact List.not_mem_nil
  exact ⟨A, m₁, B, m₂, key, first, second, one, gone, pass_stale (pass_of_passOn second) gone⟩

/-- The text and the setter of a state. -/
def textState? (s : HookStore) (place : String × Nat) : Option (String × Value) :=
  match s.slot? place.1 place.2 with
  | some (.state (.string text) setter) => some (text, setter)
  | _ => none

theorem slot?_of_textState? {s : HookStore} {i : Nat} {text : String} {setter : Value}
    (h : textState? s (key, i) = some (text, setter)) :
    s.slot? key i = some (.state (.string text) setter) := by
  unfold textState? at h
  split at h
  · rename_i found
    cases h
    exact found
  · cases h

/-- Whether the setter that a place had sets the text that is now there from one to another. -/
def setsAgain (place : String × Nat) (old now : Machine) (text next : String) : Bool :=
  match textState? old.realm.hooks place, textState? now.realm.hooks place with
  | some (_, setter), some (found, _) =>
    match Evaluator.standard.apply setter [.string next] now with
    | .ok _ after =>
      found = text && !now.realm.hooks.dirty && after.realm.hooks.dirty &&
        (textState? after.realm.hooks place).map Prod.fst = some next
    | .error _ _ => false
  | _, _ => false

/-- A component is shown, dropped and shown again with a state of its own. The setter that it had
at first sets this state, too. -/
theorem not_stale_remounted :
    ∃ A m₁ B m₂ C m₃ m₄ key v first setter own own',
      passOn (blank stateful).2 (blank stateful).1 = (.ok A, m₁) ∧
      passOn m₁ .null = (.ok B, m₂) ∧ passOn m₂ (blank stateful).1 = (.ok C, m₃) ∧
      A.keys rootPosition = [key] ∧ B.keys rootPosition = [] ∧ C.keys rootPosition = [key] ∧
      m₁.machine.realm.hooks.slot? key 0 = some (.state (.string first) setter) ∧
      m₃.machine.realm.hooks.slot? key 0 = some (.state (.string "a") own) ∧
      m₃.machine.realm.hooks.dirty = false ∧
      Evaluator.standard.apply setter [.string "b"] m₃.machine = .ok v m₄ ∧
      m₄.realm.hooks.slot? key 0 = some (.state (.string "b") own') ∧
      m₄.realm.hooks.dirty = true := by
  obtain ⟨A, m₁, B, m₂, C, m₃, shown, dropped, again, checked⟩ := exists_of_shownAgain
    (show shownAgain stateful (fun A B C =>
      (A.1.keys rootPosition).length = 1 ∧ B.1.keys rootPosition = [] ∧
        C.1.keys rootPosition = A.1.keys rootPosition ∧
        ∀ key ∈ A.1.keys rootPosition, setsAgain (key, 0) A.2.machine C.2.machine "a" "b") = true by
      decide +kernel)
  obtain ⟨one, none, same, sets⟩ := of_decide_eq_true checked
  obtain ⟨key, one⟩ := List.length_eq_one_iff.1 one
  have sets := sets key (one ▸ List.mem_singleton_self key)
  unfold setsAgain at sets
  split at sets
  · rename_i first setter text own old now
    split at sets
    · rename_i v m₄ ran
      simp only [Bool.and_eq_true, Bool.not_eq_true', decide_eq_true_eq, Option.map_eq_some_iff]
        at sets
      obtain ⟨⟨⟨rfl, clean⟩, dirty⟩, ⟨_, own'⟩, after, rfl⟩ := sets
      exact ⟨A, m₁, B, m₂, C, m₃, m₄, key, v, first, setter, own, own', shown, dropped, again, one,
        none, same.trans one, slot?_of_textState? old, slot?_of_textState? now, clean, ran,
        slot?_of_textState? after, dirty⟩
    · cases sets
  · cases sets

end Render

end TsxPreview
