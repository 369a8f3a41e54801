import TsxPreview.Proofs.Preview.Uses
import TsxPreview.Proofs.View.Passes

/-!
Instances of components: by what they are known, what makes an instance another one, and what stays
when the items of an array are reordered.
-/

namespace TsxPreview

open HookSlot HookStore Scene

/-! ## Stores of previews -/

theorem enduring_names : HookStore.Enduring Evaluator.standard
    fun s s' => s.slots.keys.Nodup → s'.slots.keys.Nodup where
  trans h h' := h' ∘ h
  reaches h := h.names
  enter _ _ := id
  leave _ := id
  pushProvider _ _ _ := id
  popProvider _ := id
  beginPass _ := id
  sweep := Script.within_iff_ends.2 fun m => by
    have swept (names : m.realm.hooks.slots.keys.Nodup) : m.realm.hooks.sweep.2.slots.keys.Nodup :=
      names.sublist (List.filter_sublist.map Prod.fst)
    refine (Hook.sweep_tends Evaluator.reaches_standard m).mono (fun _ _ h => h.names ∘ swept) ?_
    rintro m' ⟨_, h⟩
    exact h.names ∘ swept
  effects := Script.within_iff_ends.2 fun m => by
    refine (Hook.tends_runPending Evaluator.reaches_standard m).mono (fun _ _ h => h.names) ?_
    rintro m' ⟨_, h⟩
    exact h.names

/-- The store of a preview lists no instance twice, whatever is done with the preview. -/
theorem MountedTree.names_after {project : CompiledProject} {mode : Mode} {config : RuntimeConfig}
    {props : GivenProps} {p p' : Page} {t : MountedTree}
    (mounted : project.mount mode config props p = (.ok t, p')) (uses : List (Use × Page)) :
    (t.after uses).realm.hooks.slots.keys.Nodup :=
  t.related_after enduring_names uses (related_mount enduring_names mounted List.nodup_nil)

namespace Render

/-! ## Trees on an empty page -/

/-- An empty page with what is put on the heap. -/
def blank {α : Type} (x : Alloc α) : α × Stage :=
  let (globals, heap) := Globals.make {}
  let (a, heap) := x heap
  (a, ⟨⟨heap, .ofGlobals globals {}, #[]⟩, (Document.ofContainer "root").2⟩)

theorem blank_hooks {α : Type} (x : Alloc α) : (blank x).2.machine.realm.hooks = {} := by
  unfold blank
  generalize Globals.make {} = made
  rfl

def passOn (m : Stage) (root : Value) : Except ScriptError Scene × Stage :=
  (pass Evaluator.standard (Document.ofContainer "root").1 root).outcome m

theorem pass_of_passOn {m m' : Stage} {root : Value} {A : Scene}
    (run : passOn m root = (.ok A, m')) :
    (pass Evaluator.standard (Document.ofContainer "root").1 root).outcome m = (.ok A, m') :=
  run

/-- Shows one tree and then another; gives the scenes, each with the store after it. -/
def showTwo (trees : Alloc (Value × Value)) : Option ((Scene × HookStore) × Scene × HookStore) :=
  let ((root, root'), m) := blank trees
  match passOn m root with
  | (.ok A, m) =>
    match passOn m root' with
    | (.ok B, m') => some ((A, m.machine.realm.hooks), B, m'.machine.realm.hooks)
    | _ => none
  | _ => none

theorem successive_of_showTwo {trees : Alloc (Value × Value)} {A B : Scene} {s s' : HookStore}
    (shown : showTwo trees = some ((A, s), B, s')) : Successive A B {} s s' := by
  unfold showTwo at shown
  have empty := blank_hooks trees
  generalize blank trees = start at shown empty
  obtain ⟨⟨root, root'⟩, m⟩ := start
  dsimp only at shown empty
  split at shown
  · rename_i A m₁ first
    split at shown
    · rename_i B m₂ second
      cases shown
      exact ⟨⟨_, root, m, m₁, pass_of_passOn first, empty, .refl⟩,
        ⟨_, root', m₁, m₂, pass_of_passOn second, rfl, rfl⟩, List.nodup_nil⟩
    · cases shown
  · cases shown

/-! ## Keys of instances -/

/-- In a pass, instances are known by different keys, if siblings have different keys and no key
holds a mark. -/
theorem pass_nodup_keys {container : NodeId} {root : Value} {m m' : Stage} {A : Scene}
    (run : (pass Evaluator.standard container root).outcome m = (.ok A, m')) (keyed : A.wellKeyed) :
    m'.machine.realm.hooks.visited = (A.keys rootPosition).reverse ∧ (A.keys rootPosition).Nodup :=
  ⟨(pass_passed Evaluator.reaches_standard run).visited, A.nodup_keys rootPosition keyed⟩

/-- A keyed item inside a keyed element, and a keyed sibling of the element. -/
def nestedItems (key : String) : Alloc Value := do
  let component ← Alloc.native (.hook .useId)
  let item ← Alloc.element (.component component) .empty (some "b")
  let outer ← Alloc.element (.tag "b") ⟨[("children", ← Alloc.ofList [item])]⟩ (some "a")
  Alloc.ofList [outer, ← Alloc.element (.component component) .empty (some key)]

/-- Whether a pass over a tree shows a scene that passes a check. -/
def showsOn (tree : Alloc Value) (check : Scene → Bool) : Bool :=
  match passOn (blank tree).2 (blank tree).1 with
  | (.ok A, _) => check A
  | _ => false

theorem exists_of_showsOn {tree : Alloc Value} {check : Scene → Bool}
    (h : showsOn tree check = true) :
    ∃ A m, passOn (blank tree).2 (blank tree).1 = (.ok A, m) ∧ check A = true := by
  unfold showsOn at h
  generalize passOn (blank tree).2 (blank tree).1 = r at h ⊢
  obtain ⟨e | A, m⟩ := r
  · cases h
  · exact ⟨A, m, rfl, h⟩

theorem pass_nodup_keys_nested :
    ∃ A m, passOn (blank (nestedItems "c")).2 (blank (nestedItems "c")).1 = (.ok A, m) ∧
      A.wellKeyed ∧ m.machine.realm.hooks.visited.length = 2 ∧
      m.machine.realm.hooks.visited = (A.keys rootPosition).reverse ∧
      (A.keys rootPosition).Nodup := by
  obtain ⟨A, m, run, checked⟩ := exists_of_showsOn (show showsOn (nestedItems "c") (fun A =>
    A.wellKeyed ∧ (A.keys rootPosition).length = 2) = true by decide +kernel)
  obtain ⟨keyed, two⟩ := of_decide_eq_true checked
  have once := pass_nodup_keys (pass_of_passOn run) keyed
  refine ⟨A, m, run, keyed, ?_, once⟩
  rw [once.1, List.length_reverse, two]

/-- A key that spells the way to another instance: two instances are known by one key. -/
theorem not_nodup_keys_nested :
    ∃ A m, passOn (blank (nestedItems "a.b/kb")).2 (blank (nestedItems "a.b/kb")).1 = (.ok A, m) ∧
      (∀ l ∈ A.arrays rootPosition, (l.2.filterMap Scene.key?).Nodup) ∧
      ¬ (A.keys rootPosition).Nodup := by
  obtain ⟨A, m, run, checked⟩ := exists_of_showsOn (show showsOn (nestedItems "a.b/kb") (fun A =>
    (∀ l ∈ A.arrays rootPosition, (l.2.filterMap Scene.key?).Nodup) ∧
      ¬ (A.keys rootPosition).Nodup) = true by decide +kernel)
  exact ⟨A, m, run, of_decide_eq_true checked⟩

/-! ## Other instances -/

/-- What becomes of instances when something else stands in their places. -/
structure Remounts (A B : Scene) (s s' : HookStore) : Prop where
  /-- An item of an array whose key is gone is unmounted, with all that it showed. -/
  gone : ∀ place as bs, (place, as) ∈ A.arrays rootPosition → (place, bs) ∈ B.arrays rootPosition →
    ∀ key ∈ removed place as bs, Unmounts key s s'
  /-- An item with a new key starts anew. -/
  fresh : ∀ place as bs, (place, as) ∈ A.arrays rootPosition → (place, bs) ∈ B.arrays rootPosition →
    ∀ b ∈ placed place 0 bs, (∀ a ∈ as, a.key? ≠ b.2.key?) →
      ∀ y ∈ b.2.instances b.1, y.found = none
  /-- Where another component stands, wherever that is, the old instance is unmounted and the new
  one starts anew. -/
  component : ∀ x ∈ A.instances rootPosition, ∀ y ∈ B.instances rootPosition,
    x.position = y.position → Unmarked x.component.componentName →
    Unmarked y.component.componentName →
    (x.component.componentName ≠ y.component.componentName ∨
      x.component.componentId ≠ y.component.componentId) →
    Unmounts x.key s s' ∧ y.found = none

/-- A component with an effect that gives a cleanup. -/
def effectful : Alloc Value := do
  let effect ← Alloc.native (.bindOf (← Alloc.native .noop))
  Alloc.native (.bound (← Alloc.native (.hook .useEffect)) .undefined [effect, ← Alloc.ofList []])

def keyedItems (component : Value) (keys : List String) : Alloc Value := do
  Alloc.ofList (← keys.mapM fun key => Alloc.element (.component component) .empty (some key))

/-- An item is dropped, one is added, and one moves. -/
def shiftedItems : Alloc (Value × Value) := do
  let component ← effectful
  return (← keyedItems component ["b", "c"], ← keyedItems component ["a", "b"])

/-- Whether two trees are shown as arrays that pass a check. -/
def showsArrays (trees : Alloc (Value × Value))
    (check : Scene → Scene → HookStore → HookStore → List Scene → List Scene → Bool) : Bool :=
  match showTwo trees with
  | some ((A, s), B, s') =>
    match A.arrays rootPosition, B.arrays rootPosition with
    | [(place, as)], [(place', bs)] =>
      decide (place = rootPosition ∧ place' = rootPosition) && check A B s s' as bs
    | _, _ => false
  | none => false

theorem exists_of_showsArrays {trees : Alloc (Value × Value)}
    {check : Scene → Scene → HookStore → HookStore → List Scene → List Scene → Bool}
    (h : showsArrays trees check = true) :
    ∃ A B s s' as bs, showTwo trees = some ((A, s), B, s') ∧
      (rootPosition, as) ∈ A.arrays rootPosition ∧ (rootPosition, bs) ∈ B.arrays rootPosition ∧
      check A B s s' as bs = true := by
  unfold showsArrays at h
  generalize showTwo trees = r at h ⊢
  split at h
  · rename_i A s B s'
    split at h
    · rename_i place as place' bs old new
      obtain ⟨places, checked⟩ := Bool.and_eq_true_iff.1 h
      obtain ⟨rfl, rfl⟩ := of_decide_eq_true places
      exact ⟨A, B, s, s', as, bs, rfl, old ▸ List.mem_cons_self, new ▸ List.mem_cons_self, checked⟩
    · cases h
  · cases h

/-- An element alone, with one key and then with another. -/
def rekeyedRoot : Alloc (Value × Value) := do
  let component ← Alloc.native (.hook .useId)
  return (← Alloc.element (.component component) .empty (some "a"),
    ← Alloc.element (.component component) .empty (some "b"))

/-- Whether two trees are shown as scenes that pass a check. -/
def showsTwo (trees : Alloc (Value × Value)) (check : Scene → Scene → HookStore → Bool) : Bool :=
  match showTwo trees with
  | some ((A, _), B, s') => check A B s'
  | none => false

theorem exists_of_showsTwo {trees : Alloc (Value × Value)}
    {check : Scene → Scene → HookStore → Bool} (h : showsTwo trees check = true) :
    ∃ A B s s', showTwo trees = some ((A, s), B, s') ∧ check A B s' = true := by
  unfold showsTwo at h
  generalize showTwo trees = r at h ⊢
  split at h
  · rename_i A s B s'
    exact ⟨A, B, s, s', rfl, h⟩
  · cases h

/-- What becomes of the items of an array when they are reordered, and some added and removed. -/
structure KeepsKeyed (place : String) (as bs : List Scene) (s₀ s s' : HookStore) : Prop where
  /-- An item whose key stays finds the slots that it left. So does what it shows below, as far as
  nothing else below the item is known by the same key. -/
  stay : ∀ a ∈ placed place 0 as, ∀ b ∈ placed place 0 bs, a.2.key? = b.2.key? →
    List.Forall₂ (fun x y => x.key = y.key ∧
        (x.position = a.1 ∨ (a.2.keys a.1).count x.key = 1 →
          Throughout (fun i => Retained (s₀.Still s' (x.key, i))) x.left y.found))
      (a.2.instances a.1) (b.2.instances b.1)
  /-- Exactly the instances of removed items lose their slots. -/
  dropped : ∀ key, s.slots.get? key ≠ none →
    (s'.slots.get? key = none ↔ key ∈ removed place as bs)
  /-- Exactly their cleanups are called as cleanups of instances that leave, each once. -/
  cleaned : ∃ notes, s'.history = notes ++ s.history ∧ ((leftCleanups notes).map Prod.fst).Nodup ∧
    ∀ slot c, (slot, c) ∈ leftCleanups notes ↔
      slot.1 ∈ removed place as bs ∧ s.cleanupAt slot = some c

end Render

end TsxPreview
