import TsxPreview.Builtin.Text
import TsxPreview.Proofs.Number.Rounding
import TsxPreview.Proofs.Script.Running

/-!
How the methods of arrays and strings reckon with indices: where a place that a script gives is moved
into the list, and the one sum that goes beyond the largest index.
-/

namespace TsxPreview

/-! ## Bounds of slices -/

theorem sliceBound_le {length : Nat} {x : Float} (lt : length < 2 ^ 53) :
    sliceBound length x ≤ length := by
  unfold sliceBound
  split
  · rename_i negative
    exact Binary64.toIndex_add_le lt negative
  · exact Nat.min_le_right _ _

theorem sliceStart_le (h : Heap) {length : Nat} (lt : length < 2 ^ 53) (start stop : Value) :
    (sliceRange h length start stop).1 ≤ length := by
  unfold sliceRange
  dsimp only
  split
  · exact Nat.zero_le _
  · exact sliceBound_le lt

theorem ArrayMethod.spliceCount_le (h : Heap) (args : List Value) (room : Nat) :
    spliceCount h args room ≤ room := by
  unfold spliceCount
  split
  · exact Nat.min_le_right _ _
  · exact Nat.le_refl _

namespace Script

variable {a b start stop length : Nat}

theorem addIndex_eq (lt : a + b < indexLimit) : addIndex a b = pure (a + b) := if_pos lt

theorem subIndex_eq (le : b ≤ a) : subIndex a b = pure (a - b) := if_pos le

theorem checkSlice_eq (order : start ≤ stop) (le : stop ≤ length) :
    checkSlice start stop length = pure () := by
  unfold checkSlice
  rw [if_neg (Nat.not_lt.mpr order), if_neg (Nat.not_lt.mpr le)]

end Script

open Script

namespace TextMethod

/-- A piece of a text stays within it whatever its bounds. -/
theorem cut_eq (cs : List Char) (start stop : Nat) :
    cut cs start stop = pure (textOfChars ((cs.take stop).drop start)) := by
  have moved : (cs.take (min (max stop (min start cs.length)) cs.length)).drop (min start cs.length) =
      (cs.take stop).drop start := by
    rw [List.drop_take, List.drop_take]
    by_cases inside : start ≤ cs.length
    · rw [Nat.min_eq_left inside, List.take_eq_take_iff, List.length_drop]
      omega
    · rw [List.drop_eq_nil_of_le (by omega), List.drop_eq_nil_of_le (by omega), List.take_nil,
        List.take_nil]
  unfold cut
  dsimp only
  rw [checkSlice_eq (by omega) (Nat.min_le_right _ _), moved]
  rfl

end TextMethod

/-! ## Methods -/

namespace Script

variable {α β : Type} {m : Machine}

theorem onHeap_bind_apply (f : Heap → β) (g : β → Script α) :
    (onHeap f >>= g) m = g (f m.heap) m := rfl

theorem throw_bind_apply (e : ScriptError) (g : β → Script α) :
    ((throw e : Script β) >>= g) m = .error e m := rfl

end Script

namespace ArrayMethod

/-- The methods that take places of the array. -/
def takesPlaces : ArrayMethod → Bool
  | slice | atIndex | splice | fill => true
  | _ => false

/-- Where `splice` starts. -/
def spliceStart (h : Heap) (args : List Value) (size : Nat) : Nat :=
  (sliceRange h size (argument args 0) .undefined).1

variable {m : Machine} {args : List Value} {size : Nat}

/-- A `splice` that starts within the array ends within it. -/
theorem ends_spliceRange (start : spliceStart m.heap args size ≤ size) (short : size < indexLimit)
    {post : Nat × Nat → Machine → Prop} {fail : Machine → Prop} :
    Ends (spliceRange args size) m post fail ↔
      post (spliceStart m.heap args size, spliceStart m.heap args size +
        spliceCount m.heap args (size - spliceStart m.heap args size)) m := by
  have count := spliceCount_le m.heap args (size - spliceStart m.heap args size)
  unfold spliceStart at *
  have room := subIndex_eq start
  have stop := addIndex_eq (Nat.lt_of_le_of_lt (Nat.add_le_of_le_sub' start count) short)
  have inside := checkSlice_eq (Nat.le_add_right _ _) (Nat.add_le_of_le_sub' start count)
  simp only [spliceRange, ends_bind, ends_onHeap, room, ends_pure, stop, inside]

/-- One that starts behind the end goes below the least index. -/
theorem spliceRange_of_lt (beyond : size < spliceStart m.heap args size)
    (g : Nat × Nat → Script Value) :
    (spliceRange args size >>= g) m = .error (.index .subtraction) m := by
  unfold spliceStart at beyond
  have room : subIndex size (sliceRange m.heap size (argument args 0) .undefined).1 =
      throw (.index .subtraction) := if_neg (Nat.not_le.mpr beyond)
  unfold spliceRange
  rw [bind_assoc, onHeap_bind_apply]
  dsimp only
  rw [room, bind_assoc, throw_bind_apply]

end ArrayMethod

namespace TextMethod

/-- The methods that take places of the text. -/
def takesPlaces : TextMethod → Bool
  | slice | substring | charAt | charCodeAt | atIndex | split => true
  | _ => false

variable {ev : Evaluator} {m : Machine} {s : String} {args : List Value}

/-- The place behind the largest index is none. -/
theorem run_charAt_of_le
    (large : indexLimit ≤ Binary64.toIndex ((argument args 0).toInteger m.heap) + 1) :
    run ev s charAt args m = .error (.index .addition) m := by
  have beyond : addIndex (Binary64.toIndex ((argument args 0).toInteger m.heap)) 1 =
      throw (.index .addition) := if_neg (Nat.not_lt.mpr large)
  have inside : ¬(argument args 0).toInteger m.heap < 0 := fun negative => by
    rw [Binary64.toIndex_of_neg negative] at large
    exact absurd large (by decide)
  unfold run integerOf
  dsimp only
  rw [onHeap_bind_apply, if_neg inside, beyond, throw_bind_apply]

end TextMethod

/-! ## Ranges -/

/-- How the methods of arrays and strings that take places reckon with them. Lengths are indices. -/
structure Evaluator.Reckons (ev : Evaluator) : Prop where
  /-- No method of an array leaves the range of indices but a `splice` that starts behind the end. -/
  array (m : Machine) (ref : ArrayRef) (method : ArrayMethod) (args : List Value) :
    let size := (m.heap.items ref).size
    method.takesPlaces → size < indexLimit →
      if method = .splice ∧ size < ArrayMethod.spliceStart m.heap args size then
        method.run ev ref args m = .error (.index .subtraction) m
      else (method.run ev ref args).Succeeds m
  /-- None starts there as long as doubles count the items. -/
  start (h : Heap) (args : List Value) (size : Nat) :
    size < 2 ^ 53 → ArrayMethod.spliceStart h args size ≤ size
  /-- No method of a text does but `charAt` at the largest index. -/
  text (m : Machine) (s : String) (method : TextMethod) (args : List Value) :
    method.takesPlaces →
      if method = .charAt ∧
          indexLimit ≤ Binary64.toIndex ((argument args 0).toInteger m.heap) + 1 then
        method.run ev s args m = .error (.index .addition) m
      else (method.run ev s args).Succeeds m

theorem Evaluator.reckons (ev : Evaluator) : ev.Reckons where
  array m ref method args places short := by
    split
    · rename_i beyond
      obtain ⟨rfl, beyond⟩ := beyond
      simp only [ArrayMethod.run, ArrayMethod.change]
      rw [onHeap_bind_apply, ArrayMethod.spliceRange_of_lt beyond]
    · rename_i within
      refine Ends.succeeds ?_
      cases method with
      | slice => simp only [ArrayMethod.run, ArrayMethod.read, ends_bind, ends_onHeap, ends_alloc]
      | atIndex =>
        simp only [ArrayMethod.run, ArrayMethod.read, integerOf, ends_bind, ends_onHeap, ends_pure]
      | fill =>
        simp only [ArrayMethod.run, ArrayMethod.change, ends_bind, ends_onHeap, ends_pure,
          ends_modifyHeap]
      | splice =>
        simp only [ArrayMethod.run, ArrayMethod.change, ends_bind, ends_onHeap]
        rw [ArrayMethod.ends_spliceRange (Nat.not_lt.mp fun beyond => within ⟨rfl, beyond⟩) short]
        simp only [ends_modifyHeap, ends_alloc]
      | _ => cases places
  start h args size lt := sliceStart_le h lt _ _
  text m s method args places := by
    split
    · rename_i beyond
      obtain ⟨rfl, beyond⟩ := beyond
      exact TextMethod.run_charAt_of_le beyond
    · rename_i within
      refine Ends.succeeds ?_
      cases method with
      | slice => simp only [TextMethod.run, TextMethod.cut_eq, ends_bind, ends_onHeap, ends_pure]
      | substring => simp only [TextMethod.run, TextMethod.cut_eq, ends_bind, ends_onHeap, ends_pure]
      | charAt =>
        have stop := addIndex_eq (Nat.not_le.mp fun beyond => within ⟨rfl, beyond⟩)
        simp only [TextMethod.run, integerOf, ends_bind, ends_onHeap]
        split
        · trivial
        · simp only [stop, TextMethod.cut_eq, pure_bind, ends_pure]
      | charCodeAt =>
        simp only [TextMethod.run, integerOf, ends_bind, ends_onHeap]
        split <;> trivial
      | atIndex => simp only [TextMethod.run, integerOf, ends_bind, ends_onHeap, ends_pure]
      | split => simp only [TextMethod.run, ends_bind, ends_onHeap, ends_alloc]
      | _ => cases places

/-- A `splice` from the end of an array, and `charAt` within a text. -/
theorem Evaluator.reckons_standard :
    (ArrayMethod.splice.run standard ⟨0⟩ [.number (-1)]).Succeeds
        ⟨(({} : Heap).newArray #[.null]).2, default, #[]⟩ ∧
      (TextMethod.charAt.run standard "abc" [.number 1]).Succeeds default := by
  have size : (((({} : Heap).newArray #[.null]).2).items ⟨0⟩).size = 1 := by decide
  have spliced := (reckons standard).array ⟨(({} : Heap).newArray #[.null]).2, default, #[]⟩ ⟨0⟩
    .splice [.number (-1)] rfl (by dsimp only; rw [size]; decide)
  have start := (reckons standard).start (({} : Heap).newArray #[.null]).2 [.number (-1)] 1
    (by decide)
  have read := (reckons standard).text default "abc" .charAt [.number 1] rfl
  constructor
  · rwa [if_neg (fun beyond => Nat.not_lt.mpr start (by rw [← size]; exact beyond.2))] at spliced
  · rwa [if_neg (by decide +kernel)] at read

/-- The fault of an index that ended a run. -/
def ScriptError.index? : ScriptError → Option IndexFault
  | index fault => some fault
  | _ => none

theorem ScriptError.index?_eq_some {e : ScriptError} {fault : IndexFault} :
    e.index? = some fault ↔ e = index fault := by
  cases e <;> simp [index?]

/-- The place behind an infinite one goes beyond the largest index, and nothing catches that. -/
theorem Evaluator.not_reckons_infinity :
    ∃ m, runLone? {} "try \x7b \"abc\".charAt(Infinity); \x7d catch (e) \x7b\x7d" =
      some (.error (.index .addition), m) := by
  have checked : (runLone? {} "try \x7b \"abc\".charAt(Infinity); \x7d catch (e) \x7b\x7d").any
      (fun r => (ScriptError.ofOutcome? r.1).any fun e => e.index? = some .addition) = true := by
    decide +kernel
  obtain ⟨⟨r, m⟩, eq, failed⟩ := (Option.any_eq_true _ _).1 checked
  obtain ⟨e, eq', fault⟩ := (Option.any_eq_true _ _).1 failed
  obtain rfl := ScriptError.ofOutcome?_eq_some.mp eq'
  obtain rfl := ScriptError.index?_eq_some.mp (of_decide_eq_true fault)
  exact ⟨m, eq⟩

end TsxPreview
