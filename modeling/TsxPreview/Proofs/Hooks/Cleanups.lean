import Mathlib.Data.List.Nodup
import TsxPreview.Proofs.Hooks.Changes

/-!
The cleanups in a store of slots: where they stand, what writes to the store make of them, and which
of them a sweep gives.
-/

namespace TsxPreview

namespace Record

variable {α : Type}

theorem keys_insert_subset (r : Record α) (name : String) (value : α) :
    ∀ n ∈ (r.insert name value).keys, n = name ∨ n ∈ r.keys := by
  unfold insert keys
  simp only
  induction r.entries with
  | nil => simp [insertEntry]
  | cons e rest ih =>
    intro n hn
    by_cases he : e.1 = name
    · rw [insertEntry, if_pos (by simpa using he), List.map_cons] at hn
      exact .inr hn
    · rw [insertEntry, if_neg (by simpa using he), List.map_cons] at hn
      obtain rfl | hn := List.mem_cons.1 hn
      · exact .inr List.mem_cons_self
      · exact (ih n hn).imp_right (List.mem_cons_of_mem _)

theorem nodup_insert {r : Record α} (h : r.keys.Nodup) (name : String) (value : α) :
    (r.insert name value).keys.Nodup := by
  obtain ⟨entries⟩ := r
  induction entries with
  | nil => simp [insert, insertEntry, keys]
  | cons e rest ih =>
    obtain ⟨fresh, distinct⟩ := List.nodup_cons.1 h
    by_cases he : e.1 = name
    · rwa [insert, insertEntry, if_pos (by simpa using he)]
    · rw [insert, insertEntry, if_neg (by simpa using he)]
      refine List.nodup_cons.2 ⟨fun hm => ?_, ih distinct⟩
      exact (keys_insert_subset ⟨rest⟩ name value _ hm).elim he fresh

theorem get?_of_mem {r : Record α} (h : r.keys.Nodup) {name : String} {value : α}
    (hm : (name, value) ∈ r.entries) : r.get? name = some value := by
  obtain ⟨entries⟩ := r
  induction entries with
  | nil => cases hm
  | cons e rest ih =>
    obtain ⟨fresh, distinct⟩ := List.nodup_cons.1 h
    obtain rfl | hm := List.mem_cons.1 hm
    · simp [get?]
    · have other : e.1 ≠ name := by
        rintro rfl
        exact fresh (List.mem_map.2 ⟨_, hm, rfl⟩)
      simpa [get?, other] using ih distinct hm

theorem mem_of_get? {r : Record α} {name : String} {value : α} (h : r.get? name = some value) :
    (name, value) ∈ r.entries := by
  obtain ⟨e, he, rfl⟩ := Option.map_eq_some_iff.1 h
  have : e.1 = name := by simpa using List.find?_some he
  exact this ▸ List.mem_of_find?_eq_some he

end Record

namespace HookStore

variable {s s' : HookStore} {place : String × Nat} {c : Value}

/-! ## Cleanups by place -/

theorem cleanupAt_congr (h : s'.slots = s.slots) : s'.cleanupAt = s.cleanupAt := by
  unfold cleanupAt
  rw [slot?_congr h]

theorem slot?_store_of_isSome (s : HookStore) (content : HookSlot) {key : String} {i : Nat}
    (hs : (s.slot? key i).isSome) (hne : (key, i) ≠ place) :
    (s.store place.1 place.2 content).slot? key i = s.slot? key i := by
  by_cases hk : key = place.1
  · subst hk
    have hi := (slot?_isSome s _ i).1 hs
    rw [slot?_store, if_neg]
    intro eq
    exact hne (Prod.ext rfl (by omega))
  · exact slot?_store_of_key_ne s _ content hk i

theorem slot?_store_of_there (s : HookStore) (content : HookSlot)
    (hs : (s.slot? place.1 place.2).isSome) :
    (s.store place.1 place.2 content).slot? place.1 place.2 = some content :=
  slot?_store_self s content (Nat.le_of_lt ((slot?_isSome s _ _).1 hs))

/-- What is written over a slot takes the place of its cleanup. -/
theorem cleanupAt_store_of_there (content : HookSlot) (hs : (s.slot? place.1 place.2).isSome)
    (other : String × Nat) : (s.store place.1 place.2 content).cleanupAt other =
      if other = place then content.cleanup? else s.cleanupAt other := by
  have hle := Nat.le_of_lt ((slot?_isSome s _ _).1 hs)
  unfold cleanupAt
  by_cases h : other = place
  · rw [if_pos h, h, slot?_store_self s content hle]
    rfl
  · rw [if_neg h, slot?_store_of_ne s content hle h]

/-- A write that carries the cleanup of its place changes no cleanup, wherever it goes. -/
theorem cleanupAt_store {content : HookSlot} (h : content.cleanup? = s.cleanupAt place) :
    (s.store place.1 place.2 content).cleanupAt = s.cleanupAt := by
  funext ⟨key, i⟩
  obtain ⟨own, slot⟩ := place
  unfold cleanupAt at *
  by_cases hk : key = own
  · subst hk
    simp only at h ⊢
    rw [slot?_store]
    split
    · rename_i hi
      rw [Option.bind_some, h]
      by_cases hlt : slot < s.slotCount key
      · rw [hi, Nat.min_eq_left (Nat.le_of_lt hlt)]
      · rw [(slot?_eq_none s key slot).2 (by omega), (slot?_eq_none s key i).2 (by omega)]
    · rfl
  · simp only
    rw [slot?_store_of_key_ne s slot content hk]

/-! ## Cleanups of instances that are dropped -/

theorem mem_cleanups {key : String} {slots : Array HookSlot} :
    (place, c) ∈ cleanups key slots ↔
      place.1 = key ∧ (slots[place.2]?).bind HookSlot.cleanup? = some c := by
  obtain ⟨own, i⟩ := place
  unfold cleanups
  simp only [List.mem_filterMap, Prod.exists, List.mem_zipIdx_iff_getElem?, Array.getElem?_toList,
    Option.map_eq_some_iff, Prod.mk.injEq, Option.bind_eq_some_iff]
  constructor
  · rintro ⟨content, j, there, given, hc, ⟨rfl, rfl⟩, rfl⟩
    exact ⟨rfl, content, there, hc⟩
  · rintro ⟨rfl, content, there, hc⟩
    exact ⟨content, i, there, c, hc, ⟨rfl, rfl⟩, rfl⟩

/-- An instance gives the cleanups of different places. -/
theorem nodup_cleanups (key : String) (slots : Array HookSlot) :
    ((cleanups key slots).map Prod.fst).Nodup := by
  have numbers : slots.toList.zipIdx.Pairwise fun a b => a.2 ≠ b.2 := by
    have := List.nodup_range' (s := 0) (n := slots.toList.length)
    rw [← List.zipIdx_map_snd] at this
    exact List.pairwise_map.1 this
  unfold cleanups List.Nodup
  rw [List.pairwise_map, List.pairwise_filterMap]
  refine numbers.imp ?_
  rintro ⟨a, i⟩ ⟨b, j⟩ hne x hx y hy
  obtain ⟨_, -, rfl⟩ := Option.map_eq_some_iff.1 hx
  obtain ⟨_, -, rfl⟩ := Option.map_eq_some_iff.1 hy
  exact fun eq => hne (Prod.mk.inj eq).2

theorem mem_cleanupsOf {list : List (String × Array HookSlot)} :
    (place, c) ∈ cleanupsOf list ↔
      ∃ slots, (place.1, slots) ∈ list ∧ (slots[place.2]?).bind HookSlot.cleanup? = some c := by
  unfold cleanupsOf sorted
  simp only [List.mem_flatMap, List.mem_mergeSort, Prod.exists, mem_cleanups]
  constructor
  · rintro ⟨key, slots, hm, rfl, hc⟩
    exact ⟨slots, hm, hc⟩
  · rintro ⟨slots, hm, hc⟩
    exact ⟨place.1, slots, hm, rfl, hc⟩

theorem nodup_cleanupsOf {list : List (String × Array HookSlot)}
    (h : (list.map Prod.fst).Nodup) : ((cleanupsOf list).map Prod.fst).Nodup := by
  have distinct : ((sorted list).map Prod.fst).Nodup :=
    ((List.mergeSort_perm list _).map _).nodup_iff.2 h
  unfold cleanupsOf
  rw [List.map_flatMap, List.nodup_flatMap]
  refine ⟨fun e _ => nodup_cleanups e.1 e.2, (List.pairwise_map.1 distinct).imp ?_⟩
  intro a b hne x hx hy
  obtain ⟨⟨p, c⟩, inA, rfl⟩ := List.mem_map.1 hx
  obtain ⟨⟨q, d⟩, inB, eq⟩ := List.mem_map.1 hy
  obtain rfl : q = p := eq
  exact hne ((mem_cleanups.1 inA).1.symm.trans (mem_cleanups.1 inB).1)

/-- The cleanups of entries that are chosen by their keys. -/
theorem mem_cleanupsOf_filter {p : String → Bool} (h : s.slots.keys.Nodup) :
    (place, c) ∈ cleanupsOf (s.slots.entries.filter fun (key, _) => p key) ↔
      p place.1 = true ∧ s.cleanupAt place = some c := by
  rw [mem_cleanupsOf]
  unfold cleanupAt slot?
  simp only [List.mem_filter]
  constructor
  · rintro ⟨slots, ⟨hm, hp⟩, hc⟩
    rw [Record.get?_of_mem h hm]
    exact ⟨hp, hc⟩
  · rintro ⟨hp, hc⟩
    obtain ⟨content, found, hc⟩ := Option.bind_eq_some_iff.1 hc
    obtain ⟨slots, there, found⟩ := Option.bind_eq_some_iff.1 found
    refine ⟨slots, ⟨Record.mem_of_get? there, hp⟩, ?_⟩
    rw [found]
    exact hc

/-- A sweep gives the cleanups of the instances that were not visited. -/
theorem mem_sweep (h : s.slots.keys.Nodup) :
    (place, c) ∈ s.sweep.1 ↔ place.1 ∉ s.visited ∧ s.cleanupAt place = some c := by
  show (place, c) ∈ cleanupsOf (s.slots.entries.filter fun e => !s.visited.contains e.1) ↔ _
  rw [mem_cleanupsOf_filter (p := fun key => !s.visited.contains key) h]
  simp

theorem mem_clear (h : s.slots.keys.Nodup) :
    (place, c) ∈ s.clear.1 ↔ s.cleanupAt place = some c := by
  show (place, c) ∈ cleanupsOf s.slots.entries ↔ _
  rw [← List.filter_true s.slots.entries, mem_cleanupsOf_filter (p := fun _ => true) h]
  exact and_iff_right rfl

theorem nodup_sweep (h : s.slots.keys.Nodup) : (s.sweep.1.map Prod.fst).Nodup :=
  nodup_cleanupsOf (h.sublist (List.filter_sublist.map Prod.fst))

theorem nodup_clear (h : s.slots.keys.Nodup) : (s.clear.1.map Prod.fst).Nodup :=
  nodup_cleanupsOf h

theorem cleanupAt_sweep (s : HookStore) (place : String × Nat) :
    s.sweep.2.cleanupAt place = if place.1 ∈ s.visited then s.cleanupAt place else none := by
  unfold cleanupAt
  rw [slot?_sweep]
  by_cases hv : place.1 ∈ s.visited
  · rw [if_pos hv, if_pos (by simpa using hv)]
  · rw [if_neg hv, if_neg (by simpa using hv)]
    rfl

theorem cleanupAt_clear (s : HookStore) (place : String × Nat) :
    s.clear.2.cleanupAt place = none := rfl

end HookStore

end TsxPreview
