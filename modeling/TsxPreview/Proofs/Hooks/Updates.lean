import TsxPreview.Script.Hooks

/-!
The slots of the store of hooks over time. A place is the key of an instance and a number. Setting
state and running effects change what the slot of a place holds and leave what it is; so does a later
call of the hook that it belongs to.
-/

namespace TsxPreview

namespace Record

variable {α : Type}

theorem get?_insert_of_ne (r : Record α) {name other : String} (value : α) (h : other ≠ name) :
    (r.insert name value).get? other = r.get? other := by
  unfold insert get?
  simp only
  induction r.entries with
  | nil => simp [insertEntry, Ne.symm h]
  | cons e rest ih =>
    obtain ⟨n, v⟩ := e
    by_cases hn : n = name
    · subst hn
      simp [insertEntry, Ne.symm h]
    · by_cases ho : n = other
      · simp [insertEntry, ho, h]
      · simpa [insertEntry, hn, ho, List.find?_cons] using ih

/-- Entries that are chosen by their names keep their values. -/
theorem get?_filter (r : Record α) (p : String → Bool) (name : String) :
    (⟨r.entries.filter fun (n, _) => p n⟩ : Record α).get? name
      = if p name then r.get? name else none := by
  unfold get?
  simp only [List.find?_filter]
  induction r.entries with
  | nil => simp
  | cons e rest ih =>
    obtain ⟨n, v⟩ := e
    by_cases hn : n = name
    · subst hn
      by_cases hp : p n = true
      · simp [hp]
      · simpa [hp] using ih
    · simpa [hn, List.find?_cons] using ih

end Record

namespace HookStore

/-! ## Slots by place -/

/-- How many slots an instance has. -/
def slotCount (s : HookStore) (key : String) : Nat := ((s.slots.get? key).getD #[]).size

theorem slot?_isSome (s : HookStore) (key : String) (i : Nat) :
    (s.slot? key i).isSome ↔ i < s.slotCount key := by
  unfold slot? slotCount
  cases s.slots.get? key with
  | none => simp
  | some list => simp

theorem slot?_eq_none (s : HookStore) (key : String) (i : Nat) :
    s.slot? key i = none ↔ s.slotCount key ≤ i := by
  rw [← Option.not_isSome_iff_eq_none, slot?_isSome]
  omega

theorem slot?_congr {s s' : HookStore} (h : s'.slots = s.slots) : s'.slot? = s.slot? := by
  funext key i
  unfold slot?
  rw [h]

/-- Writing a slot of one instance leaves the other instances. -/
theorem slot?_store_of_key_ne (s : HookStore) {key other : String} (slot : Nat)
    (content : HookSlot) (h : other ≠ key) (i : Nat) :
    (s.store key slot content).slot? other i = s.slot? other i := by
  unfold slot? store
  simp only
  rw [Record.get?_insert_of_ne _ _ h]

theorem slot?_store (s : HookStore) (key : String) (slot : Nat) (content : HookSlot) (i : Nat) :
    (s.store key slot content).slot? key i
      = if i = min slot (s.slotCount key) then some content else s.slot? key i := by
  have hs : s.slot? key i = ((s.slots.get? key).getD #[])[i]? := by
    unfold slot?
    cases s.slots.get? key <;> simp
  rw [hs]
  unfold slot? store slotCount
  simp only
  rw [Record.get?_insert_self]
  simp only [Option.bind_some]
  generalize (s.slots.get? key).getD #[] = list
  by_cases hlt : slot < list.size
  · rw [if_pos hlt, Array.getElem?_setIfInBounds, Nat.min_eq_left (by omega)]
    by_cases hi : slot = i
    · subst hi
      simp [hlt]
    · rw [if_neg hi, if_neg (Ne.symm hi)]
  · rw [if_neg hlt, Array.getElem?_push, Nat.min_eq_right (by omega)]

/-- A slot that exists, or the next one, is written where it was asked for. -/
theorem slot?_store_self (s : HookStore) {key : String} {slot : Nat} (content : HookSlot)
    (h : slot ≤ s.slotCount key) : (s.store key slot content).slot? key slot = some content := by
  rw [slot?_store, if_pos (by omega)]

theorem slot?_store_of_ne (s : HookStore) {key other : String} {slot i : Nat} (content : HookSlot)
    (h : slot ≤ s.slotCount key) (hne : (other, i) ≠ (key, slot)) :
    (s.store key slot content).slot? other i = s.slot? other i := by
  by_cases hk : other = key
  · subst hk
    rw [slot?_store, if_neg]
    rintro rfl
    exact hne (by rw [Nat.min_eq_left h])
  · exact slot?_store_of_key_ne s slot content hk i

/-- At most one slot is added. -/
theorem slotCount_store_le (s : HookStore) (key : String) (slot : Nat) (content : HookSlot) :
    (s.store key slot content).slotCount key ≤ s.slotCount key + 1 := by
  rw [← slot?_eq_none, slot?_store, if_neg (by omega), slot?_eq_none]
  omega

/-- A slot further on is appended, and is not found where it was asked for. -/
theorem le_slotCount_of_store {s : HookStore} {key : String} {slot : Nat}
    {content found : HookSlot} (h : (s.store key slot content).slot? key slot = some found) :
    slot ≤ s.slotCount key := by
  refine Nat.le_of_not_lt fun hlt => ?_
  rw [slot?_store, if_neg (by omega), (slot?_eq_none s key slot).2 (by omega)] at h
  cases h

theorem store_slot?_eq_self (s : HookStore) {key : String} {slot : Nat} {content : HookSlot}
    (h : s.slot? key slot = some content) : (s.store key slot content).slot? = s.slot? := by
  have hlt : slot < s.slotCount key := (s.slot?_isSome key slot).1 (by rw [h]; rfl)
  funext other i
  by_cases hp : (other, i) = (key, slot)
  · obtain ⟨rfl, rfl⟩ := Prod.mk.inj hp
    rw [slot?_store_self s content (by omega), h]
  · exact slot?_store_of_ne s content (by omega) hp

/-- Two stores with the same slots. -/
theorem slotCount_congr {s s' : HookStore} (h : s'.slot? = s.slot?) (key : String) :
    s'.slotCount key = s.slotCount key := by
  have hle : ∀ n, s'.slotCount key ≤ n ↔ s.slotCount key ≤ n := by
    intro n
    rw [← slot?_eq_none, ← slot?_eq_none, h]
  exact Nat.le_antisymm ((hle _).2 (Nat.le_refl _)) ((hle _).1 (Nat.le_refl _))

/-- A second write to the same place replaces the first. -/
theorem store_store (s : HookStore) {key : String} {slot : Nat} (first second : HookSlot)
    (h : slot ≤ s.slotCount key) :
    ((s.store key slot first).store key slot second).slot? = (s.store key slot second).slot? := by
  have hs : slot ≤ (s.store key slot first).slotCount key := by
    have := ((s.store key slot first).slot?_isSome key slot).1
      (by rw [slot?_store_self s first h]; rfl)
    omega
  funext other i
  by_cases hp : (other, i) = (key, slot)
  · obtain ⟨rfl, rfl⟩ := Prod.mk.inj hp
    rw [slot?_store_self _ second hs, slot?_store_self s second h]
  · rw [slot?_store_of_ne _ second hs hp, slot?_store_of_ne s first h hp,
      slot?_store_of_ne s second h hp]

/-! ## Instances that leave -/

/-- A sweep keeps the slots of what the pass visited and nothing else. -/
theorem slot?_sweep (s : HookStore) (key : String) (i : Nat) :
    s.sweep.2.slot? key i = if s.visited.contains key then s.slot? key i else none := by
  unfold slot? sweep
  simp only
  rw [Record.get?_filter]
  split <;> simp

/-- A sweep drops the pending effects of what it drops. -/
theorem mem_pending_sweep {s : HookStore} {e : PendingEffect} (h : e ∈ s.sweep.2.pending)
    (hs : (s.slot? e.key e.slot).isSome) : e ∈ s.pending ∧ s.visited.contains e.key := by
  unfold sweep at h
  simp only [List.mem_filter, Bool.not_eq_true', List.contains_eq_mem, decide_eq_false_iff_not]
    at h
  obtain ⟨hmem, hgone⟩ := h
  refine ⟨hmem, ?_⟩
  cases hv : s.visited.contains e.key with
  | true => rfl
  | false =>
    obtain ⟨entry, hentry, hkey⟩ : ∃ entry ∈ s.slots.entries, entry.1 = e.key := by
      unfold slot? Record.get? at hs
      cases hf : s.slots.entries.find? (·.1 == e.key) with
      | none => simp [hf] at hs
      | some entry => exact ⟨entry, List.mem_of_find?_eq_some hf, by simpa using List.find?_some hf⟩
    refine absurd (List.mem_map.2 ⟨entry, List.mem_filter.2 ⟨hentry, ?_⟩, hkey⟩) hgone
    rw [hkey, Bool.not_eq_true', ← List.contains_eq_mem]
    exact hv

end HookStore

/-! ## Slots -/

namespace HookSlot

/-- What setting state and running effects make of a slot. -/
inductive Updated : HookSlot → HookSlot → Prop
  | same (c : HookSlot) : Updated c c
  | state (v w setter : Value) : Updated (.state v setter) (.state w setter)
  | reducer (v w reducer dispatch : Value) :
      Updated (.reducer v reducer dispatch) (.reducer w reducer dispatch)
  | effect (deps : Option (List Value)) (c c' : Value) : Updated (.effect deps c) (.effect deps c')

theorem Updated.trans {a b c : HookSlot} (h : Updated a b) (h' : Updated b c) : Updated a c := by
  cases h with
  | same => exact h'
  | state v w setter => cases h' <;> exact .state _ _ _
  | reducer v w r d => cases h' <;> exact .reducer _ _ _ _
  | effect deps x y => cases h' <;> exact .effect _ _ _

theorem Updated.rel_isSome {a b : Option HookSlot} (h : Option.Rel Updated a b) :
    b.isSome = a.isSome := by
  cases h <;> rfl

theorem Updated.rel_some {a : HookSlot} {b : Option HookSlot}
    (h : Option.Rel Updated (some a) b) : ∃ c, b = some c ∧ a.Updated c := by
  cases h with
  | some h => exact ⟨_, rfl, h⟩

theorem Updated.of_rel_some {a : Option HookSlot} {b : HookSlot}
    (h : Option.Rel Updated a (some b)) : ∃ c, a = some c ∧ c.Updated b := by
  cases h with
  | some h => exact ⟨_, rfl, h⟩

/-- What a call makes of the slot that it finds: its content stays unless the dependencies
changed, and a reducer is replaced by the newest. -/
inductive Reread : HookSlot → HookSlot → Prop
  | same (c : HookSlot) : Reread c c
  | reducer (v r r' dispatch : Value) : Reread (.reducer v r dispatch) (.reducer v r' dispatch)
  | effect {deps deps' : Option (List Value)} (cleanup : Value) (h : depsChanged deps deps' = true) :
      Reread (.effect deps cleanup) (.effect deps' cleanup)
  | memo {deps deps' : Option (List Value)} (v v' : Value) (h : depsChanged deps deps' = true) :
      Reread (.memo deps v) (.memo deps' v')

theorem Updated.effect_some {deps : Option (List Value)} {cleanup : Value} {b : Option HookSlot}
    (h : Option.Rel Updated (some (.effect deps cleanup)) b) :
    ∃ deps cleanup, b = some (.effect deps cleanup) := by
  obtain ⟨c, rfl, hu⟩ := rel_some h
  cases hu <;> exact ⟨_, _, rfl⟩

/-- What stays of a slot as long as its instance does: its kind, and what its component was given of
it. -/
def handle : HookSlot → HookSlot
  | .state _ setter => .state .undefined setter
  | .reducer _ _ dispatch => .reducer .undefined .undefined dispatch
  | .effect _ _ => .effect none .undefined
  | .memo _ _ => .memo none .undefined
  | .ref object => .ref object
  | .id text => .id text

theorem Updated.handle_eq {c c' : HookSlot} (h : Updated c c') : c'.handle = c.handle := by
  cases h <;> rfl

theorem Reread.handle_eq {c c' : HookSlot} (h : Reread c c') : c'.handle = c.handle := by
  cases h <;> rfl

/-- The functions that a slot holds for its component act on the given place. -/
def ActsOn (place : String × Nat) : HookSlot → Prop
  | .state _ setter => ∃ id, setter = .native id (.setState place.1 place.2) none
  | .reducer _ _ dispatch => ∃ id, dispatch = .native id (.dispatch place.1 place.2) none
  | _ => True

theorem Updated.actsOn {place : String × Nat} {c c' : HookSlot} (h : Updated c c')
    (hc : c.ActsOn place) : c'.ActsOn place := by
  cases h <;> exact hc

/-- What a hook gives to its component, from the slot. -/
def Gives (h : Heap) (v : Value) : HookSlot → Prop
  | .state value setter => ∃ r, v = .array r ∧ h.items r = #[value, setter]
  | .reducer value _ dispatch => ∃ r, v = .array r ∧ h.items r = #[value, dispatch]
  | .effect _ _ => v = .undefined
  | .memo _ value => v = value
  | .ref object => v = object
  | .id text => v = .string text

end HookSlot

namespace Hook

/-- Whether a slot is of the kind that a hook stores. -/
def keeps : Hook → HookSlot → Bool
  | useState, .state _ _ | useReducer, .reducer _ _ _ | useEffect, .effect _ _
  | useLayoutEffect, .effect _ _ | useMemo, .memo _ _ | useCallback, .memo _ _ | useRef, .ref _
  | useId, .id _ => true
  | _, _ => false

theorem keeps_effect {hook : Hook} {deps : Option (List Value)} {cleanup : Value} {c : HookSlot}
    (h : hook.keeps (.effect deps cleanup)) (hc : hook.keeps c) :
    ∃ deps cleanup, c = .effect deps cleanup := by
  cases hook <;> cases h <;> cases c <;> first | exact ⟨_, _, rfl⟩ | cases hc

theorem keeps_updated {hook : Hook} {c c' : HookSlot} (h : c.Updated c') :
    hook.keeps c' = hook.keeps c := by
  cases h <;> cases hook <;> rfl

end Hook

/-! ## Updates -/

namespace HookStore

/-- What functions may do to the store that set state and call no hooks. -/
structure Updates (s s' : HookStore) : Prop where
  frames : s'.frames = s.frames
  visited : s'.visited = s.visited
  pending : s'.pending = s.pending
  slots : ∀ key i, Option.Rel HookSlot.Updated (s.slot? key i) (s'.slot? key i)

theorem Updates.of_slots {s s' : HookStore} (hf : s'.frames = s.frames)
    (hv : s'.visited = s.visited) (hp : s'.pending = s.pending) (hs : s'.slot? = s.slot?) :
    s.Updates s' := by
  refine ⟨hf, hv, hp, ?_⟩
  intro key i
  rw [hs]
  cases s.slot? key i with
  | none => exact .none
  | some c => exact .some (.same c)

theorem Updates.refl (s : HookStore) : s.Updates s := .of_slots rfl rfl rfl rfl

theorem Updates.trans {a b c : HookStore} (h : a.Updates b) (h' : b.Updates c) : a.Updates c := by
  refine ⟨h'.frames.trans h.frames, h'.visited.trans h.visited, h'.pending.trans h.pending, ?_⟩
  intro key i
  have h₁ := h.slots key i
  have h₂ := h'.slots key i
  revert h₁ h₂
  cases a.slot? key i <;> cases b.slot? key i <;> cases c.slot? key i <;> intro h₁ h₂ <;>
    cases h₁ <;> cases h₂
  · exact .none
  · exact .some (HookSlot.Updated.trans ‹_› ‹_›)

theorem Updates.leave {s s' : HookStore} (h : s.Updates s') : s.leave.Updates s'.leave :=
  ⟨congrArg List.tail h.frames, h.visited, h.pending, h.slots⟩

theorem Updates.beginPass {s s' : HookStore} (h : s.Updates s') :
    s.beginPass.Updates s'.beginPass :=
  ⟨rfl, rfl, h.pending, h.slots⟩

theorem Updates.isSome {s s' : HookStore} (h : s.Updates s') (key : String) (i : Nat) :
    (s'.slot? key i).isSome = (s.slot? key i).isSome :=
  HookSlot.Updated.rel_isSome (h.slots key i)

theorem Updates.slotCount {s s' : HookStore} (h : s.Updates s') (key : String) :
    s'.slotCount key = s.slotCount key := by
  have hlt : ∀ i, i < s'.slotCount key ↔ i < s.slotCount key := by
    intro i
    rw [← slot?_isSome, ← slot?_isSome, h.isSome]
  have h₁ := hlt (s.slotCount key)
  have h₂ := hlt (s'.slotCount key)
  omega

/-- A slot that is there before updates is there after them. -/
theorem Updates.slot_some {s s' : HookStore} (h : s.Updates s') {key : String} {i : Nat}
    {c : HookSlot} (hc : s.slot? key i = some c) :
    ∃ c', s'.slot? key i = some c' ∧ c.Updated c' :=
  HookSlot.Updated.rel_some (hc ▸ h.slots key i)

/-- A slot that is there after updates was there before them. -/
theorem Updates.of_slot_some {s s' : HookStore} (h : s.Updates s') {key : String} {i : Nat}
    {c' : HookSlot} (hc : s'.slot? key i = some c') :
    ∃ c, s.slot? key i = some c ∧ c.Updated c' :=
  HookSlot.Updated.of_rel_some (hc ▸ h.slots key i)

/-- The store takes a new content for one place, and keeps the others. -/
structure Takes (s : HookStore) (place : String × Nat) (content : HookSlot) (s' : HookStore) :
    Prop where
  own : s'.slot? place.1 place.2 = some content
  others : ∀ key i, (key, i) ≠ place → s'.slot? key i = s.slot? key i
  dirty : s'.dirty = true
  frames : s'.frames = s.frames
  visited : s'.visited = s.visited
  pending : s'.pending = s.pending

theorem takes_update {s : HookStore} {key : String} {i : Nat} {c : HookSlot} (content : HookSlot)
    (hc : s.slot? key i = some c) :
    s.Takes (key, i) content (s.update (key, i) content) := by
  have hle : i ≤ s.slotCount key := by
    have := (s.slot?_isSome key i).1 (by rw [hc]; rfl)
    omega
  exact ⟨slot?_store_self s content hle, fun _ _ hne => slot?_store_of_ne s content hle hne,
    rfl, rfl, rfl, rfl⟩

theorem Takes.updates {s s' : HookStore} {key : String} {i : Nat} {c c' : HookSlot}
    (h : s.Takes (key, i) c' s') (hc : s.slot? key i = some c) (hu : c.Updated c') :
    s.Updates s' := by
  refine ⟨h.frames, h.visited, h.pending, ?_⟩
  intro other j
  by_cases hp : (other, j) = (key, i)
  · obtain ⟨rfl, rfl⟩ := Prod.mk.inj hp
    rw [h.own, hc]
    exact .some hu
  · rw [h.others other j hp]
    exact ((Updates.refl s).slots other j)

/-- To write an update of a slot is an update. -/
theorem Updates.store {s : HookStore} {key : String} {i : Nat} {c c' : HookSlot}
    (hc : s.slot? key i = some c) (hu : c.Updated c') : s.Updates (s.store key i c') := by
  have h := (takes_update c' hc).updates hc hu
  exact ⟨h.frames, h.visited, h.pending, h.slots⟩

end HookStore

end TsxPreview
