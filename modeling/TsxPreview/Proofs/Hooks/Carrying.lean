import TsxPreview.Proofs.Hooks.Accounts
import TsxPreview.Proofs.Script.Levels

/-!
Slots that are carried along while other instances are rendered, and while effects run. A function
that sets state changes what a slot holds; nothing takes a slot away but a sweep.
-/

namespace TsxPreview

namespace HookSlot

/-- What the call of a hook wrote of its slot: all but the cleanup of an effect. -/
def written : HookSlot → HookSlot
  | .effect deps _ => .effect deps .undefined
  | c => c

/-- What becomes of a slot while another instance is rendered. Unless its state is updated, it stays
as it is. -/
structure Carried (still : Prop) (c c' : HookSlot) : Prop where
  updated : c.Updated c'
  cleanup : c'.cleanup? = c.cleanup?
  same : still → c' = c

/-- What becomes of a slot between two renders of its instance. Unless its state is updated, the call
of its hook finds what it wrote. -/
structure Retained (still : Prop) (c c' : HookSlot) : Prop where
  updated : c.Updated c'
  same : still → c'.written = c.written

variable {p q r : Prop} {a b c : HookSlot}

theorem Carried.refl (p : Prop) (c : HookSlot) : c.Carried p c := ⟨.same c, rfl, fun _ => rfl⟩

theorem Carried.trans (h : Carried p a b) (h' : Carried q b c) (le : r → p ∧ q) :
    Carried r a c where
  updated := h.updated.trans h'.updated
  cleanup := h'.cleanup.trans h.cleanup
  same hr := (h'.same (le hr).2).trans (h.same (le hr).1)

theorem Carried.mono (h : Carried p a b) (le : q → p) : Carried q a b :=
  ⟨h.updated, h.cleanup, h.same ∘ le⟩

theorem Carried.retained (h : Carried p a b) : Retained p a b := ⟨h.updated, fun hp => by rw [h.same hp]⟩

theorem Retained.refl (p : Prop) (c : HookSlot) : c.Retained p c := (Carried.refl p c).retained

theorem Retained.trans (h : Retained p a b) (h' : Retained q b c) (le : r → p ∧ q) : Retained r a c where
  updated := h.updated.trans h'.updated
  same hr := (h'.same (le hr).2).trans (h.same (le hr).1)

/-- A relation of slots, for each slot of an instance and its number. -/
def Throughout (R : Nat → HookSlot → HookSlot → Prop) :
    Option (Array HookSlot) → Option (Array HookSlot) → Prop :=
  Option.Rel fun a b => ∀ i : Nat, Option.Rel (R i) a[i]? b[i]?

namespace Throughout

variable {R S T : Nat → HookSlot → HookSlot → Prop} {a b c : Option (Array HookSlot)}

theorem refl (hR : ∀ i c, R i c c) (a : Option (Array HookSlot)) : Throughout R a a := by
  cases a with
  | none => exact .none
  | some list =>
    refine .some fun i => ?_
    cases list[i]? with
    | none => exact .none
    | some c => exact .some (hR i c)

theorem trans (h : Throughout R a b) (h' : Throughout S b c)
    (le : ∀ i x y z, R i x y → S i y z → T i x z) : Throughout T a c := by
  cases h with
  | none =>
    cases h'
    exact .none
  | @some a b h =>
    cases h' with
    | @some _ list h' =>
      refine .some fun i => ?_
      have first := h i
      have second := h' i
      generalize a[i]? = x at first ⊢
      generalize b[i]? = y at first second
      generalize list[i]? = z at second ⊢
      cases first with
      | none =>
        cases second
        exact .none
      | some first =>
        cases second with
        | some second => exact .some (le i _ _ _ first second)

theorem mono (h : Throughout R a b) (le : ∀ i x y, R i x y → S i x y) : Throughout S a b := by
  cases h with
  | none => exact .none
  | @some a b h =>
    refine .some fun i => ?_
    have slot := h i
    generalize a[i]? = x at slot ⊢
    generalize b[i]? = y at slot ⊢
    cases slot with
    | none => exact .none
    | some slot => exact .some (le i _ _ slot)

theorem eq_none_iff (h : Throughout R a b) : b = none ↔ a = none := by
  cases h with
  | none => exact Iff.rfl
  | some h => exact iff_of_false (fun no => by cases no) fun no => by cases no

end Throughout

end HookSlot

open HookSlot

namespace HookStore

variable {s s' s'' : HookStore} {key : String}

/-! ## While an instance is rendered -/

/-- The state of a place is not updated between two stores. -/
def Still (s s' : HookStore) (place : String × Nat) : Prop :=
  s'.updates.count place = s.updates.count place

theorem Still.split {place : String × Nat} (h : s.updates <:+ s'.updates)
    (h' : s'.updates <:+ s''.updates) (still : s.Still s'' place) :
    s.Still s' place ∧ s'.Still s'' place := by
  have first := h.sublist.count_le place
  have second := h'.sublist.count_le place
  unfold Still at *
  omega

theorem throughout_insert_of_ne {R : Nat → HookSlot → HookSlot → Prop} (hR : ∀ i c, R i c c)
    {other : String} (hk : key ≠ other) (i : Nat) (c : HookSlot) :
    Throughout R (s.slots.get? key) ((s.store other i c).slots.get? key) := by
  unfold store
  dsimp only
  rw [Record.get?_insert_of_ne _ _ hk]
  exact .refl hR _

/-- A write over a slot. -/
theorem throughout_store {R : Nat → HookSlot → HookSlot → Prop} (hR : ∀ i c, R i c c) {i : Nat}
    {old new : HookSlot} (found : s.slot? key i = some old) (h : R i old new) :
    Throughout R (s.slots.get? key) ((s.store key i new).slots.get? key) := by
  obtain ⟨list, there, found⟩ := Option.bind_eq_some_iff.1 found
  have hi : i < list.size := (Array.getElem?_eq_some_iff.1 found).1
  unfold store
  dsimp only
  rw [there, Record.get?_insert_self, Option.getD_some, if_pos hi]
  refine .some fun j => ?_
  rw [Array.getElem?_setIfInBounds]
  by_cases hj : i = j
  · subst hj
    rw [if_pos rfl, if_pos hi, found]
    exact .some h
  · rw [if_neg hj]
    cases list[j]? with
    | none => exact .none
    | some c => exact .some (hR j c)

theorem Change.updates (h : s.Change s') : s.updates <:+ s'.updates := by
  cases h with
  | keep h => exact h.updates ▸ List.suffix_rfl
  | claim | put | queue => exact List.suffix_rfl
  | set => exact List.suffix_cons _ _

theorem Reaches.updates (h : s.Reaches s') : s.updates <:+ s'.updates := by
  induction h with
  | refl => exact List.suffix_rfl
  | tail _ step ih => exact ih.trans step.updates

/-- Only the innermost instance writes slots of its own. -/
theorem Change.carried (h : s.Change s') (hk : s.openKeys.head? ≠ some key) :
    Throughout (fun i => Carried (s.Still s' (key, i))) (s.slots.get? key) (s'.slots.get? key) := by
  cases h with
  | keep h =>
    rw [h.slots]
    exact .refl (fun _ => Carried.refl _) _
  | claim | queue => exact .refl (fun _ => Carried.refl _) _
  | @put place hook content held kind carried =>
    refine throughout_insert_of_ne (fun _ => Carried.refl _) ?_ _ _
    rintro rfl
    exact hk held.innermost
  | @set other i old new found updated carried =>
    by_cases same : key = other
    · subst same
      refine throughout_store (fun _ => Carried.refl _) found ⟨updated, carried, fun still => ?_⟩
      unfold Still update at still
      rw [List.count_cons_self] at still
      omega
    · exact throughout_insert_of_ne (fun _ => Carried.refl _) same _ _

theorem Reaches.carried (h : s.Reaches s') (hk : s.openKeys.head? ≠ some key) :
    Throughout (fun i => Carried (s.Still s' (key, i))) (s.slots.get? key) (s'.slots.get? key) := by
  induction h with
  | refl => exact .refl (fun _ => Carried.refl _) _
  | tail first step ih =>
    exact ih.trans (step.carried (Reaches.openKeys first ▸ hk)) fun _ _ _ _ h h' =>
      h.trans h' (Still.split (Reaches.updates first) step.updates)

/-- An instance that is not there stays away, and no state is set in its places. -/
def Away (key : String) (s s' : HookStore) : Prop :=
  s.slots.get? key = none → s'.slots.get? key = none ∧ ∀ i, s.Still s' (key, i)

theorem Away.refl (key : String) (s : HookStore) : Away key s s := fun none => ⟨none, fun _ => rfl⟩

theorem Away.trans (h : Away key s s') (h' : Away key s' s'') : Away key s s'' := by
  intro none
  obtain ⟨none', still⟩ := h none
  obtain ⟨none'', still'⟩ := h' none'
  exact ⟨none'', fun i => (still' i).trans (still i)⟩

/-- What writes to places of other instances or nowhere. -/
theorem Away.of_updates (hs : s.slots.get? key = none → s'.slots.get? key = none)
    (hu : s'.updates = s.updates) : Away key s s' := by
  intro none
  refine ⟨hs none, fun i => ?_⟩
  unfold Still
  rw [hu]

/-- A function that sets state finds nothing at the places of an instance that is not there. -/
theorem Change.away (h : s.Change s') (hk : s.openKeys.head? ≠ some key) : Away key s s' := by
  intro none
  refine ⟨(h.carried hk).eq_none_iff.2 none, fun i => ?_⟩
  cases h with
  | keep h =>
    unfold Still
    rw [h.updates]
  | claim | put | queue => rfl
  | @set other j old new found updated carried =>
    by_cases same : other = key
    · subst same
      unfold slot? at found
      rw [none] at found
      cases found
    · exact List.count_cons_of_ne (by simp [same])

theorem Reaches.away (h : s.Reaches s') (hk : s.openKeys.head? ≠ some key) : Away key s s' := by
  induction h with
  | refl => exact .refl key s
  | tail first step ih => exact ih.trans (step.away (Reaches.openKeys first ▸ hk))

theorem Reaches.names (h : s.Reaches s') (names : s.slots.keys.Nodup) : s'.slots.keys.Nodup := by
  induction h with
  | refl => exact names
  | tail _ step ih => exact step.names ih

/-- Scripts take no instance away. -/
theorem Change.stays (h : s.Change s') (there : s.slots.get? key ≠ none) :
    s'.slots.get? key ≠ none := by
  have written (other : String) (i : Nat) (c : HookSlot) :
      (s.store other i c).slots.get? key ≠ none := by
    unfold store
    dsimp only
    by_cases same : key = other
    · rw [same, Record.get?_insert_self]
      exact Option.some_ne_none _
    · rwa [Record.get?_insert_of_ne _ _ same]
  cases h with
  | keep h => rwa [h.slots]
  | claim | queue => exact there
  | put | set => exact written _ _ _

theorem Reaches.stays (h : s.Reaches s') (there : s.slots.get? key ≠ none) :
    s'.slots.get? key ≠ none := by
  induction h with
  | refl => exact there
  | tail _ step ih => exact step.stays ih

/-- What is carried along keeps its cleanups. -/
theorem cleanupAt_of_carried {still : Nat → Prop}
    (h : Throughout (fun i => Carried (still i)) (s.slots.get? key) (s'.slots.get? key)) (i : Nat) :
    s'.cleanupAt (key, i) = s.cleanupAt (key, i) := by
  unfold cleanupAt slot?
  generalize s.slots.get? key = a at h ⊢
  generalize s'.slots.get? key = b at h ⊢
  cases h with
  | none => rfl
  | @some a b h =>
    have slot := h i
    simp only [Option.bind_some]
    generalize a[i]? = c at slot ⊢
    generalize b[i]? = d at slot ⊢
    cases slot with
    | none => rfl
    | some carried => exact carried.cleanup

/-! ## While effects run -/

/-- The cleanup of an instance that left. -/
def leftCleanup? : HookNote → Option ((String × Nat) × Value)
  | .cleaned place cleanup .left => some (place, cleanup)
  | _ => none

/-- The cleanups of instances that left, in the order of their calls; the newest note is first. -/
def leftCleanups (notes : List HookNote) : List ((String × Nat) × Value) :=
  notes.reverse.filterMap leftCleanup?

theorem leftCleanups_append (new old : List HookNote) :
    leftCleanups (new ++ old) = leftCleanups old ++ leftCleanups new := by
  unfold leftCleanups
  rw [List.reverse_append, List.filterMap_append]

theorem leftCleanups_of_calls {calls : List HookNote} (h : ∀ n ∈ calls, n.IsCall) :
    leftCleanups calls = [] := by
  refine List.filterMap_eq_nil_iff.2 fun n hn => ?_
  obtain ⟨place, hook, rfl⟩ := h n (List.mem_reverse.1 hn)
  rfl

/-- The effects and cleanups that follow the rendering leave all slots, and call the given cleanups
of instances that left. -/
structure Tended (cleaned : List ((String × Nat) × Value)) (s s' : HookStore) : Prop where
  openKeys : s'.openKeys = s.openKeys
  visited : s'.visited = s.visited
  names : s.slots.keys.Nodup → s'.slots.keys.Nodup
  updates : s.updates <:+ s'.updates
  slots : s.openKeys = [] → ∀ key,
    Throughout (fun i => Retained (s.Still s' (key, i))) (s.slots.get? key) (s'.slots.get? key)
  away : ∀ key, s.openKeys.head? ≠ some key → Away key s s'
  notes : ∃ new, s'.history = new ++ s.history ∧ leftCleanups new = cleaned

theorem Tended.trans {first second : List ((String × Nat) × Value)} (h : Tended first s s')
    (h' : Tended second s' s'') : Tended (first ++ second) s s'' where
  openKeys := h'.openKeys.trans h.openKeys
  visited := h'.visited.trans h.visited
  names := h'.names ∘ h.names
  updates := h.updates.trans h'.updates
  slots closed key :=
    (h.slots closed key).trans (h'.slots (h.openKeys.trans closed) key) fun _ _ _ _ k k' =>
      k.trans k' (Still.split h.updates h'.updates)
  away key hk := (h.away key hk).trans (h'.away key (h.openKeys ▸ hk))
  notes := by
    obtain ⟨new, eq, rfl⟩ := h.notes
    obtain ⟨more, eq', rfl⟩ := h'.notes
    exact ⟨more ++ new, by rw [eq', eq, List.append_assoc], leftCleanups_append more new⟩

theorem Reaches.tended (h : s.Reaches s') : Tended [] s s' where
  openKeys := h.openKeys
  visited := h.visited
  names := h.names
  updates := h.updates
  slots closed key := (h.carried (by simp [closed])).mono fun _ _ _ c => c.retained
  away _ := h.away
  notes := by
    obtain ⟨calls, eq, only⟩ := h.history
    exact ⟨calls, eq, leftCleanups_of_calls only⟩

theorem tended_note (s : HookStore) (n : HookNote) :
    Tended (leftCleanup? n).toList s (s.note n) where
  openKeys := rfl
  visited := rfl
  names h := h
  updates := List.suffix_rfl
  slots _ key := .refl (fun _ => Retained.refl _) _
  away key _ := .refl key s
  notes := ⟨[n], rfl, by cases h : leftCleanup? n <;> simp [leftCleanups, h]⟩

/-- To change the cleanup of an effect. -/
theorem tended_store {i : Nat} {deps : Option (List Value)} {old : Value}
    (found : s.slot? key i = some (.effect deps old)) (new : Value) :
    Tended [] s (s.store key i (.effect deps new)) where
  openKeys := rfl
  visited := rfl
  names h := Record.nodup_insert h _ _
  updates := List.suffix_rfl
  slots _ other := by
    by_cases same : other = key
    · subst same
      exact throughout_store (fun _ => Retained.refl _) found ⟨.effect _ _ _, fun _ => rfl⟩
    · exact throughout_insert_of_ne (fun _ => Retained.refl _) same _ _
  away other _ := .of_updates (fun none => by
    have same : other ≠ key := by
      rintro rfl
      unfold slot? at found
      rw [none] at found
      cases found
    unfold store
    dsimp only
    rwa [Record.get?_insert_of_ne _ _ same]) rfl
  notes := ⟨[], rfl, rfl⟩

end HookStore

namespace Hook

open HookStore Script

variable {ev : Evaluator}

/-- Work that tends the slots. If it ends well, it has called the given cleanups. -/
def Tends {α : Type} (cleaned : List ((String × Nat) × Value)) (x : Script α) : Prop :=
  ∀ m, Ends x m (fun _ m' => Tended cleaned m.realm.hooks m'.realm.hooks)
    fun m' => ∃ some, Tended some m.realm.hooks m'.realm.hooks

namespace Tends

variable {α β : Type} {first second : List ((String × Nat) × Value)}

/-- Work that starts later. -/
theorem after {x : Script α} {all : List ((String × Nat) × Value)} (hx : Tends second x)
    {m m₁ : Machine} (h : Tended first m.realm.hooks m₁.realm.hooks) (eq : first ++ second = all) :
    Ends x m₁ (fun _ m' => Tended all m.realm.hooks m'.realm.hooks)
      fun m' => ∃ some, Tended some m.realm.hooks m'.realm.hooks := by
  subst eq
  refine (hx m₁).mono (fun _ _ h' => h.trans h') ?_
  rintro m' ⟨more, h'⟩
  exact ⟨_, h.trans h'⟩

theorem bind {x : Script α} {f : α → Script β} (hx : Tends first x) (hf : ∀ a, Tends second (f a)) :
    Tends (first ++ second) (x >>= f) := by
  intro m
  rw [ends_bind]
  exact (hx m).mono (fun a m' h => Tends.after (hf a) h rfl) fun _ h => h

theorem pure (a : α) : Tends [] (Pure.pure a : Script α) := fun _ => Reaches.tended .refl

end Tends

section

variable (hev : ev.Within fun m m' => m.realm.hooks.Reaches m'.realm.hooks)

include hev

theorem tends_callAt (place : String × Nat) (fn : Value) : Tends [] (callAt ev place fn) := by
  intro m
  rw [ends_callAt]
  refine (within_iff_ends.1 (hev.call fn .undefined []) m).mono (fun _ _ h => h.tended) ?_
  exact fun m' h => ⟨_, h.tended.trans (tended_note m'.realm.hooks (.raised place))⟩

theorem tends_cleanUp (cause : CleanupCause) (place : String × Nat) (cleanup : Value) :
    Tends (leftCleanup? (.cleaned place cleanup cause)).toList (cleanUp ev cause place cleanup) := by
  have called : Tends [] (do let _ ← callAt ev place cleanup) :=
    (tends_callAt hev place cleanup).bind fun _ => .pure ()
  intro m
  unfold cleanUp
  rw [ends_bind, ends_modifyHooks]
  exact called.after (tended_note m.realm.hooks (.cleaned place cleanup cause)) (List.append_nil _)

theorem tends_runEffect (place : String × Nat) (callback : Value) :
    Tends [] (runEffect ev place callback) := by
  refine (tends_callAt hev place callback).bind fun given m => ?_
  rw [ends_bind, ends_modifyHooks, ends_bind, ends_slotAt]
  have noted := tended_note m.realm.hooks (.ran place given)
  split
  · rename_i deps old found
    rw [ends_store]
    exact noted.trans (tended_store found given)
  · exact noted

theorem tends_runEffects (pending : List PendingEffect) : Tends [] (runEffects ev pending) := by
  induction pending with
  | nil => exact .pure ()
  | cons e rest ih =>
    have run : Tends [] (do runEffect ev (e.key, e.slot) e.callback; runEffects ev rest) :=
      (tends_runEffect hev (e.key, e.slot) e.callback).bind fun _ => ih
    intro m
    unfold runEffects
    rw [ends_bind, ends_slotAt]
    dsimp only
    split
    · rename_i deps previous found
      rw [ends_bind, ends_store]
      split
      · exact ((tends_cleanUp hev .again _ previous).bind fun _ => run).after
          (tended_store found .undefined) rfl
      · exact run.after (tended_store found .undefined) rfl
    · exact ih m

theorem tends_runPending : Tends [] (runPending ev) := by
  intro m
  unfold runPending
  rw [ends_bind, ends_onRealm]
  dsimp only
  rw [ends_bind, ends_modifyHooks]
  have taken : Tended [] m.realm.hooks m.realm.hooks.takePending.2 :=
    ⟨rfl, rfl, id, List.suffix_rfl, fun _ _ => .refl (fun _ => Retained.refl _) _,
      fun _ _ => .of_updates id rfl, [], rfl, rfl⟩
  exact (tends_runEffects hev _).after taken rfl

theorem tends_cleanUpAll (due : List ((String × Nat) × Value)) : Tends due (cleanUpAll ev due) := by
  induction due with
  | nil => exact .pure ()
  | cons d due ih => exact (tends_cleanUp hev .left d.1 d.2).bind fun _ => ih

/-- A sweep that ends well has called the cleanups of all that it dropped. -/
theorem sweep_tends (m : Machine) :
    Ends (sweep ev) m
      (fun _ m' => Tended m.realm.hooks.sweep.1 m.realm.hooks.sweep.2 m'.realm.hooks)
      fun m' => ∃ some, Tended some m.realm.hooks.sweep.2 m'.realm.hooks := by
  unfold sweep
  rw [ends_bind, ends_onRealm]
  dsimp only
  rw [ends_bind, ends_modifyHooks]
  exact tends_cleanUpAll hev _ _

end

end Hook

end TsxPreview
