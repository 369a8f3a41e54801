import Mathlib.Data.Finset.Card
import Mathlib.Data.Finset.Image
import Mathlib.Logic.Relation
import TsxPreview.Proofs.Script.Running

/-!
Which values have a text and which have data. A conversion enters what a value holds, and nothing
stops it but the end of the references; so it ends exactly where no array, and for data no object,
that it comes to contains itself.
-/

namespace TsxPreview

open Relation

namespace Value

/-! ## Entering containers -/

section

variable {parts : Value → Option (List Value)} {v w : Value} {n : Nat}

/-- A container holds a value. `parts` says what is a container, and what is in it. -/
def Holds (parts : Value → Option (List Value)) (v w : Value) : Prop :=
  ∃ items, parts v = some items ∧ w ∈ items

/-- Whoever enters a value, and all that it holds, comes to a container that contains itself. -/
def ComesBack (parts : Value → Option (List Value)) (v : Value) : Prop :=
  ∃ w, ReflTransGen (Holds parts) v w ∧ TransGen (Holds parts) w w

/-- Containers are nested at most so many levels deep. -/
def NestsWithin (parts : Value → Option (List Value)) : Nat → Value → Prop
  | 0, v => parts v = none
  | levels + 1, v => ∀ w, Holds parts v w → NestsWithin parts levels w

theorem NestsWithin.succ (h : NestsWithin parts n v) : NestsWithin parts (n + 1) v := by
  induction n generalizing v with
  | zero =>
    rintro w ⟨items, eq, -⟩
    rw [show parts v = none from h] at eq
    cases eq
  | succ n ih => exact fun w held => ih (h w held)

theorem NestsWithin.mono {m : Nat} (h : NestsWithin parts n v) (le : n ≤ m) :
    NestsWithin parts m v := by
  induction le with
  | refl => exact h
  | step _ ih => exact ih.succ

/-- What is inside is nested less deep. -/
theorem NestsWithin.of_transGen (h : NestsWithin parts n v) (inside : TransGen (Holds parts) v w) :
    ∃ m < n, NestsWithin parts m w := by
  have step {n : Nat} {a b : Value} (h : NestsWithin parts n a) (held : Holds parts a b) :
      ∃ m < n, NestsWithin parts m b := by
    cases n with
    | zero =>
      obtain ⟨items, eq, -⟩ := held
      rw [show parts a = none from h] at eq
      cases eq
    | succ n => exact ⟨n, n.lt_succ_self, h b held⟩
  induction inside with
  | single held => exact step h held
  | tail _ held ih =>
    obtain ⟨m, less, hm⟩ := ih
    obtain ⟨k, less', hk⟩ := step hm held
    exact ⟨k, less'.trans less, hk⟩

/-- A container that contains itself would be nested ever less deep. -/
theorem NestsWithin.not_loop (h : NestsWithin parts n v) : ¬TransGen (Holds parts) v v := by
  intro loop
  induction n using Nat.strong_induction_on with
  | _ n ih =>
    obtain ⟨m, less, hm⟩ := h.of_transGen loop
    exact ih m less hm

theorem NestsWithin.not_comesBack (h : NestsWithin parts n v) : ¬ComesBack parts v := by
  rintro ⟨w, reached, loop⟩
  obtain rfl | inside := reflTransGen_iff_eq_or_transGen.mp reached
  · exact h.not_loop loop
  · obtain ⟨m, -, hm⟩ := h.of_transGen inside
    exact hm.not_loop loop

open Classical in
/-- Without a way back, each container is entered once at most, so their number bounds the depth. -/
theorem nestsWithin_card (nodes : Finset Value)
    (known : ∀ w u, ReflTransGen (Holds parts) v w → Holds parts w u → w ∈ nodes)
    (ends : ¬ComesBack parts v) : NestsWithin parts (nodes.card + 1) v := by
  induction count : nodes.card generalizing v nodes with
  | zero =>
    intro w held
    have mem := known v w .refl held
    rw [Finset.card_eq_zero.mp count] at mem
    cases mem
  | succ count' ih =>
    intro w held
    have mem := known v w .refl held
    refine ih (nodes.erase v) (fun a b reached inner => ?_) ?_ ?_
    · -- what is entered from here is not the container that was left for it
      refine Finset.mem_erase.mpr ⟨?_, known a b (reached.head held) inner⟩
      rintro rfl
      exact ends ⟨a, .refl, .head' held reached⟩
    · rintro ⟨a, reached, loop⟩
      exact ends ⟨a, reached.head held, loop⟩
    · rw [Finset.card_erase_of_mem mem, count, Nat.add_sub_cancel]

end

/-! ## What conversions enter -/

variable {h : Heap} {v : Value} {n : Nat}

/-- Texts are made of the items of arrays. -/
def textParts (h : Heap) : Value → Option (List Value)
  | array r => some (h.items r).toList
  | _ => none

/-- Data is made of the items of arrays and the members of objects. -/
def dataParts (h : Heap) : Value → Option (List Value)
  | array r => some (h.items r).toList
  | object r => some ((h.members r).entries.map (·.2))
  | _ => none

theorem isSome_mapM {α β : Type} (f : α → Option β) (list : List α) :
    (list.mapM f).isSome ↔ ∀ a ∈ list, (f a).isSome := by
  induction list with
  | nil => simp
  | cons a rest ih =>
    rw [List.forall_mem_cons, ← ih, List.mapM_cons]
    cases f a <;> cases rest.mapM f <;> simp

theorem isSome_textAt? : (v.textAt? h n).isSome ↔ NestsWithin (textParts h) n v := by
  induction n generalizing v with
  | zero => cases v <;> simp [textAt?, NestsWithin, textParts]
  | succ n ih =>
    cases v with
    | array r =>
      have item (v : Value) : (if v.isNullish then some "" else v.textAt? h n).isSome ↔
          NestsWithin (textParts h) n v := by
        rw [← ih]
        cases v <;> simp [isNullish, textAt?]
      simp [-Option.pure_def, -Option.bind_eq_bind, textAt?, isSome_mapM, item, NestsWithin, Holds,
        textParts]
    | _ => simp [textAt?, NestsWithin, Holds, textParts]

theorem isSome_jsonAt? : (v.jsonAt? h n).isSome ↔ NestsWithin (dataParts h) n v := by
  induction n generalizing v with
  | zero => cases v <;> simp [jsonAt?, NestsWithin, dataParts]
  | succ n ih =>
    cases v with
    | array r =>
      simp [-Option.pure_def, -Option.bind_eq_bind, jsonAt?, isSome_mapM, ih, NestsWithin, Holds,
        dataParts]
    | object r =>
      simp [-Option.pure_def, -Option.bind_eq_bind, jsonAt?, isSome_mapM, ih, NestsWithin, Holds,
        dataParts]
      exact forall_comm
    | _ => simp [jsonAt?, NestsWithin, Holds, dataParts]

/-! ## One level more -/

theorem mapM_congr {α β : Type} {f g : α → Option β} {list : List α} (eq : ∀ a ∈ list, f a = g a) :
    list.mapM f = list.mapM g := by
  induction list with
  | nil => rfl
  | cons a rest ih =>
    obtain ⟨first, others⟩ := List.forall_mem_cons.mp eq
    rw [List.mapM_cons, List.mapM_cons, first, ih others]

theorem NestsWithin.textAt?_succ (deep : NestsWithin (textParts h) n v) :
    v.textAt? h (n + 1) = v.textAt? h n := by
  induction n generalizing v with
  | zero => cases v <;> first | rfl | simp [NestsWithin, textParts] at deep
  | succ n ih =>
    cases v with
    | array r =>
      have items : ∀ v ∈ (h.items r).toList,
          (if v.isNullish then some "" else v.textAt? h (n + 1)) =
            if v.isNullish then some "" else v.textAt? h n := by
        intro v mem
        rw [ih (deep v ⟨_, rfl, mem⟩)]
      rw [textAt?, textAt?, mapM_congr items]
    | _ => rfl

theorem NestsWithin.jsonAt?_succ (deep : NestsWithin (dataParts h) n v) :
    v.jsonAt? h (n + 1) = v.jsonAt? h n := by
  induction n generalizing v with
  | zero => cases v <;> first | rfl | simp [NestsWithin, dataParts] at deep
  | succ n ih =>
    cases v with
    | array r => rw [jsonAt?, jsonAt?, mapM_congr fun v mem => ih (deep v ⟨_, rfl, mem⟩)]
    | object r =>
      rw [jsonAt?, jsonAt?, mapM_congr]
      rintro ⟨name, v⟩ mem
      show (do return (name, ← jsonAt? h (n + 1) v)) = do return (name, ← jsonAt? h n v)
      rw [ih (deep v ⟨_, rfl, List.mem_map_of_mem mem⟩)]
    | _ => rfl

/-! ## The store bounds the levels -/

open Classical in
theorem nestsWithin_textParts (ends : ¬ComesBack (textParts h) v) :
    NestsWithin (textParts h) (h.arrays.size + 1) v := by
  let nodes := (Finset.range h.arrays.size).image fun i => array ⟨i⟩
  have known (w u : Value) : Holds (textParts h) w u → w ∈ nodes := by
    rintro ⟨items, eq, mem⟩
    cases w with
    | array r =>
      cases eq
      refine Finset.mem_image.mpr ⟨r.index, Finset.mem_range.mpr ?_, rfl⟩
      by_contra out
      simp [Heap.items, Array.getD, out] at mem
    | _ => cases eq
  have count : nodes.card ≤ h.arrays.size := Finset.card_image_le.trans (Finset.card_range _).le
  exact (nestsWithin_card nodes (fun w u _ => known w u) ends).mono (by omega)

open Classical in
theorem nestsWithin_dataParts (ends : ¬ComesBack (dataParts h) v) :
    NestsWithin (dataParts h) (h.arrays.size + h.objects.size + 1) v := by
  let nodes := (Finset.range h.arrays.size).image (fun i => array ⟨i⟩) ∪
    (Finset.range h.objects.size).image fun i => object ⟨i⟩
  have known (w u : Value) : Holds (dataParts h) w u → w ∈ nodes := by
    rintro ⟨items, eq, mem⟩
    cases w with
    | array r =>
      cases eq
      refine Finset.mem_union_left _ (Finset.mem_image.mpr ⟨r.index, Finset.mem_range.mpr ?_, rfl⟩)
      by_contra out
      simp [Heap.items, Array.getD, out] at mem
    | object r =>
      cases eq
      refine Finset.mem_union_right _ (Finset.mem_image.mpr ⟨r.index, Finset.mem_range.mpr ?_, rfl⟩)
      by_contra out
      simp [Heap.members, Array.getD, out, Record.empty] at mem
    | _ => cases eq
  have count : nodes.card ≤ h.arrays.size + h.objects.size := by
    refine (Finset.card_union_le _ _).trans (Nat.add_le_add ?_ ?_) <;>
      exact Finset.card_image_le.trans (Finset.card_range _).le
  exact (nestsWithin_card nodes (fun w u _ => known w u) ends).mono (by omega)

/-! ## Conversions that end -/

/-- Text and data are found on some level, and are the same on every later one, exactly where no
container comes back to itself. -/
theorem conversionsEnd_iff (h : Heap) (v : Value) :
    ((∃ n s, ∀ m, n ≤ m → v.textAt? h m = some s) ↔ ¬ComesBack (textParts h) v) ∧
      ((∃ n j, ∀ m, n ≤ m → v.jsonAt? h m = some j) ↔ ¬ComesBack (dataParts h) v) := by
  constructor
  · constructor
    · rintro ⟨n, s, found⟩
      exact (isSome_textAt?.mp (Option.isSome_of_eq_some (found n le_rfl))).not_comesBack
    · intro ends
      have deep := nestsWithin_textParts ends
      obtain ⟨s, found⟩ := Option.isSome_iff_exists.mp (isSome_textAt?.mpr deep)
      refine ⟨h.arrays.size + 1, s, fun m le => ?_⟩
      induction m, le using Nat.le_induction with
      | base => exact found
      | succ m le ih => rw [(deep.mono le).textAt?_succ, ih]
  · constructor
    · rintro ⟨n, j, found⟩
      exact (isSome_jsonAt?.mp (Option.isSome_of_eq_some (found n le_rfl))).not_comesBack
    · intro ends
      have deep := nestsWithin_dataParts ends
      obtain ⟨j, found⟩ := Option.isSome_iff_exists.mp (isSome_jsonAt?.mpr deep)
      refine ⟨h.arrays.size + h.objects.size + 1, j, fun m le => ?_⟩
      induction m, le using Nat.le_induction with
      | base => exact found
      | succ m le ih => rw [(deep.mono le).jsonAt?_succ, ih]

theorem exists_textAt? (room : h.arrays.size < n) (ends : ¬ComesBack (textParts h) v) :
    ∃ s, v.textAt? h n = some s := by
  have deep := (nestsWithin_textParts ends).mono (Nat.succ_le_of_lt room)
  exact Option.isSome_iff_exists.mp (isSome_textAt?.mpr deep)

theorem exists_jsonAt? (room : h.arrays.size + h.objects.size < n)
    (ends : ¬ComesBack (dataParts h) v) : ∃ j, v.jsonAt? h n = some j := by
  have deep := (nestsWithin_dataParts ends).mono (Nat.succ_le_of_lt room)
  exact Option.isSome_iff_exists.mp (isSome_jsonAt?.mpr deep)

/-- A store with fewer arrays than there are levels has a text for every value that has one. -/
theorem textAt?_levels (room : h.arrays.size < Heap.levels) (ends : ¬ComesBack (textParts h) v) :
    v.textAt? h Heap.levels = some (v.text h) := by
  obtain ⟨s, found⟩ := exists_textAt? room ends
  rw [text, found, Option.getD_some]

/-- The same of data; that there is none, as of a function, is an answer too. -/
theorem jsonAt?_levels (room : h.arrays.size + h.objects.size < Heap.levels)
    (ends : ¬ComesBack (dataParts h) v) : v.jsonAt? h Heap.levels = some (v.json? h) := by
  obtain ⟨j, found⟩ := exists_jsonAt? room ends
  rw [json?, found, Option.join_some]

/-- The array that a value refers to. -/
def arrayRef? : Value → Option ArrayRef
  | array r => some r
  | _ => none

theorem arrayRef?_eq_some {r : ArrayRef} : v.arrayRef? = some r ↔ v = array r := by
  cases v <;> simp [arrayRef?]

/-- An array that is put into itself has neither text nor data on any level. -/
theorem not_conversionsEnd_loop :
    ∃ m scope v, runLone? {} "const a = []; a.push(a);" = some (.ok (), m) ∧
      m.heap.lookup scope "a" = some v ∧
        ∀ n, v.textAt? m.heap n = none ∧ v.jsonAt? m.heap n = none := by
  have checked : (runLone? {} "const a = []; a.push(a);").any (fun r =>
      r.1.isOk ∧ (List.range r.2.heap.scopes.size).any fun i =>
        ((r.2.heap.lookup ⟨i⟩ "a").bind arrayRef?).any fun ref =>
          (r.2.heap.items ref).toList.any fun v => v.arrayRef? = some ref) = true := by
    decide +kernel
  obtain ⟨⟨r, m⟩, eq, found⟩ := (Option.any_eq_true _ _).1 checked
  obtain ⟨ended, found⟩ := of_decide_eq_true found
  obtain ⟨i, -, found⟩ := List.any_eq_true.1 found
  obtain ⟨ref, declared, found⟩ := (Option.any_eq_true _ _).1 found
  obtain ⟨a, declared, isArray⟩ := Option.bind_eq_some_iff.mp declared
  obtain ⟨b, mem, inside⟩ := List.any_eq_true.1 found
  obtain rfl := arrayRef?_eq_some.mp isArray
  obtain rfl := arrayRef?_eq_some.mp (of_decide_eq_true inside)
  cases r with
  | error e => cases ended
  | ok a =>
    refine ⟨m, ⟨i⟩, _, eq, declared, fun n => ⟨?_, ?_⟩⟩
    · exact Option.not_isSome_iff_eq_none.1 fun text =>
        (isSome_textAt?.mp text).not_loop (.single ⟨_, rfl, mem⟩)
    · exact Option.not_isSome_iff_eq_none.1 fun data =>
        (isSome_jsonAt?.mp data).not_loop (.single ⟨_, rfl, mem⟩)

end Value

end TsxPreview
