import TsxPreview.Builtin.Array
import TsxPreview.Proofs.Script.Indices
import TsxPreview.Proofs.Sorting

/-!
How long arrays get: what keeps them as short as a script may make one, and what does not.
-/

namespace TsxPreview

open Script

/-! ## Heaps -/

namespace Heap

variable {h : Heap}

/-- No array is longer than a script may make one. -/
def Bounded (h : Heap) : Prop := ∀ r, (h.items r).size ≤ maxArrayLength

theorem bounded_newArray_iff {items : Array Value} :
    (h.newArray items).2.Bounded ↔ h.Bounded ∧ items.size ≤ maxArrayLength := by
  have step (r : ArrayRef) : ((h.newArray items).2.items r) =
      if r.index = h.arrays.size then items else h.items r := by
    unfold Heap.items Heap.newArray
    dsimp only
    rw [Array.getD_eq_getD_getElem?, Array.getElem?_push, Array.getD_eq_getD_getElem?]
    split <;> rfl
  refine ⟨fun hb => ⟨fun r => ?_, ?_⟩, fun both r => ?_⟩
  · by_cases new : r.index = h.arrays.size
    · have none : h.items r = #[] := by
        rw [Heap.items, Array.getD_eq_getD_getElem?, Array.getElem?_eq_none (Nat.le_of_eq new.symm)]
        rfl
      rw [none]
      exact Nat.zero_le _
    · have := hb r
      rwa [step, if_neg new] at this
  · have := hb ⟨h.arrays.size⟩
    rwa [step, if_pos rfl] at this
  · rw [step]
    split
    · exact both.2
    · exact both.1 r

theorem Bounded.modifyItems (hb : h.Bounded) (r : ArrayRef) {f : Array Value → Array Value}
    (le : (f (h.items r)).size ≤ maxArrayLength) : (h.modifyItems r f).Bounded := by
  intro s
  have old := hb s
  unfold Heap.items at old le ⊢
  unfold Heap.modifyItems
  dsimp only
  rw [Array.getD_eq_getD_getElem?, Array.getElem?_modify]
  rw [Array.getD_eq_getD_getElem?] at old le
  split
  · rename_i same
    rw [same] at le
    cases found : h.arrays[s.index]? with
    | none => exact Nat.zero_le _
    | some items =>
      rw [found] at le
      exact le
  · exact old

theorem Bounded.modifyItems_iff (hb : h.Bounded) {r : ArrayRef} (lt : r.index < h.arrays.size)
    {f : Array Value → Array Value} :
    (h.modifyItems r f).Bounded ↔ (f (h.items r)).size ≤ maxArrayLength := by
  refine ⟨fun hb' => ?_, hb.modifyItems r⟩
  have := hb' r
  simpa [Heap.items, Heap.modifyItems, Array.getElem_modify, lt] using this

end Heap

namespace Script

variable {α β : Type} {P : α → Prop} {Q : β → Prop}

/-- Started with arrays that are short enough, a computation leaves such arrays, also when it fails;
`P` holds of what it gives. -/
def Bounds (x : Script α) (P : α → Prop) : Prop :=
  ∀ m : Machine, m.heap.Bounded → Ends x m (fun a m' => P a ∧ m'.heap.Bounded) (·.heap.Bounded)

/-- It keeps arrays short enough. -/
abbrev KeepsBounded (x : Script α) : Prop := Bounds x fun _ => True

namespace Bounds

theorem pure {a : α} (h : P a) : Bounds (pure a) P := fun _ hb => ⟨h, hb⟩

theorem throw (e : ScriptError) : Bounds (throw e) P := fun _ hb => hb

theorem bind {x : Script α} {f : α → Script β} (hx : Bounds x P)
    (hf : ∀ a, P a → Bounds (f a) Q) : Bounds (x >>= f) Q := by
  intro m hb
  rw [ends_bind]
  exact (hx m hb).mono (fun a m' h => hf a h.1 m' h.2) fun _ => id

theorem mono {Q : α → Prop} {x : Script α} (hx : Bounds x P) (imp : ∀ a, P a → Q a) :
    Bounds x Q :=
  fun m hb => (hx m hb).mono (fun a _ h => ⟨imp a h.1, h.2⟩) fun _ => id

theorem onHeap {f : Heap → α} (h : ∀ heap : Heap, heap.Bounded → P (f heap)) :
    Bounds (onHeap f) P :=
  fun m hb => ⟨h m.heap hb, hb⟩

theorem read (f : Heap → α) : KeepsBounded (Script.onHeap f) := onHeap fun _ _ => trivial

theorem realm (f : Realm → α) : KeepsBounded (Script.onRealm f) := fun _ hb => ⟨trivial, hb⟩

theorem modifyHeap {f : Heap → Heap} (h : ∀ heap : Heap, heap.Bounded → (f heap).Bounded) :
    KeepsBounded (Script.modifyHeap f) :=
  fun m hb => ⟨trivial, h m.heap hb⟩

theorem attempt {x : Script α} (hx : Bounds x P) : KeepsBounded (Script.attempt x) :=
  fun m hb => ends_attempt ((hx m hb).mono (fun _ _ h => ⟨trivial, h.2⟩)
    fun _ hb => ⟨fun _ => ⟨trivial, hb⟩, hb⟩)

theorem array {items : Array Value} (le : items.size ≤ maxArrayLength) :
    KeepsBounded (liftM (Alloc.array items)) :=
  fun _ hb => ⟨trivial, Heap.bounded_newArray_iff.mpr ⟨hb, le⟩⟩

theorem ofList {items : List Value} (le : items.length ≤ maxArrayLength) :
    KeepsBounded (liftM (Alloc.ofList items)) :=
  array (show items.toArray.size ≤ maxArrayLength from le)

theorem ofPair (a b : Value) : KeepsBounded (liftM (Alloc.ofList [a, b])) :=
  ofList (by simp [maxArrayLength])

theorem native (fn : HostFunction) : KeepsBounded (liftM (Alloc.native fn)) :=
  fun _ hb => ⟨trivial, hb⟩

theorem forIn {γ : Type} {list : List γ} {f : γ → β → Script (ForInStep β)}
    (hf : ∀ c b, KeepsBounded (f c b)) (init : β) : KeepsBounded (forIn list init f) := by
  induction list generalizing init with
  | nil => exact pure trivial
  | cons c rest ih =>
    rw [List.forIn_cons]
    refine bind (hf c init) fun step _ => ?_
    cases step with
    | done b => exact pure trivial
    | yield b => exact ih b

theorem mapM {γ : Type} {list : List γ} {f : γ → Script β} (hf : ∀ c, KeepsBounded (f c)) :
    Bounds (list.mapM f) fun out => out.length = list.length := by
  induction list with
  | nil =>
    rw [List.mapM_nil]
    exact pure rfl
  | cons c rest ih =>
    rw [List.mapM_cons]
    exact bind (hf c) fun b _ => bind ih fun out length => pure (congrArg (· + 1) length)

/-- A length that was checked. -/
theorem arrayLength (x : Float) : Bounds (arrayLength x) (· ≤ maxArrayLength) := by
  unfold Script.arrayLength
  split
  · split
    · exact pure (by omega)
    · exact throw _
  · exact throw _

end Bounds

/-! ## Assignments -/

/-- An assignment to an index or to a length keeps arrays short enough. -/
theorem bounds_setProperty (object : Value) (key : String) (value : Value) :
    KeepsBounded (setProperty object key value) := by
  unfold setProperty
  split
  · exact .throw _
  · exact .throw _
  · exact .modifyHeap fun _ hb => hb
  · rename_i r
    split
    · refine .bind (.read _) fun x _ =>
        .bind (.arrayLength x) fun length le => .modifyHeap fun h hb => hb.modifyItems r ?_
      simp
      omega
    · split
      · exact .pure trivial
      · rename_i i
        refine .bind (.read _) fun size _ => ?_
        split
        · refine .modifyHeap fun h hb => hb.modifyItems r ?_
          rw [Array.size_setIfInBounds]
          exact hb r
        · refine .bind (.arrayLength _) fun length le => .modifyHeap fun h hb => hb.modifyItems r ?_
          have := hb r
          simp [padded]
          omega
  · exact .pure trivial

end Script

/-! ## Methods -/

namespace ArrayMethod

/-- The methods that do not look at how long an array gets. -/
def grows : ArrayMethod → Bool
  | push | unshift | splice | concat | flat | flatMap => true
  | _ => false

variable {ev : Evaluator}

theorem bounds_requireCallback (fn : Value) : KeepsBounded (requireCallback fn) := by
  unfold requireCallback
  split
  · exact .pure trivial
  · exact .bind (.read _) fun text _ => .throw _

theorem bounds_read (ref : ArrayRef) (m : ArrayMethod) (args : List Value) (items : Array Value)
    (short : ¬m.grows) (le : items.size ≤ maxArrayLength) :
    KeepsBounded (read ref m args items) := by
  unfold read
  dsimp only
  split
  · exact .pure trivial
  · exact .pure trivial
  · exact .pure trivial
  · split
    · exact .bind (P := fun _ => True) (.pure trivial) fun _ _ =>
        .bind (.read _) fun _ _ => .pure trivial
    · exact .bind (.read _) fun _ _ => .bind (.read _) fun _ _ => .pure trivial
  · exact .bind (.read _) fun _ _ => .pure trivial
  · refine .bind (.read _) fun range _ => .array ?_
    split
    · rw [Array.size_extract]
      omega
    · exact Nat.zero_le _
  · exact .bind (.read _) fun _ _ => .pure trivial
  · cases short rfl
  · cases short rfl
  · refine .ofList ?_
    simpa using le
  · refine .bind (.mapM fun p => .ofPair _ _) fun pairs length => .ofList ?_
    simpa [length, indexed] using le
  · exact .pure trivial

section

variable {fn : Value} (calls : ∀ this args, KeepsBounded (ev.call fn this args)) (this : Value)

include calls

theorem bounds_mapFrom (items : List Value) (i : Nat) (out : Array Value) :
    Bounds (mapFrom ev fn this items i out) (·.size = out.size + items.length) := by
  fun_induction mapFrom ev fn this items i out with
  | case1 i out => exact .pure rfl
  | case2 i out v rest ih =>
    refine .bind (calls _ _) fun mapped _ => (ih mapped).mono fun all size => ?_
    rw [size, Array.size_push, List.length_cons]
    omega

theorem bounds_filterFrom (items : List Value) (i : Nat) (out : Array Value) :
    Bounds (filterFrom ev fn this items i out) (·.size ≤ out.size + items.length) := by
  fun_induction filterFrom ev fn this items i out with
  | case1 i out => exact .pure (Nat.le_refl _)
  | case2 i out v rest ih =>
    refine .bind (calls _ _) fun kept _ => (ih kept).mono fun all size => ?_
    rw [List.length_cons]
    split at size
    · rw [Array.size_push] at size
      omega
    · omega

theorem bounds_search (wanted : Bool) (items : List (Value × Nat)) :
    KeepsBounded (search ev fn this wanted items) := by
  fun_induction search ev fn this wanted items with
  | case1 => exact .pure trivial
  | case2 v i rest ih =>
    refine .bind (calls _ _) fun answer _ => ?_
    split
    · exact .pure trivial
    · exact ih

theorem bounds_reduceFrom (items : List (Value × Nat)) (acc : Value) :
    KeepsBounded (reduceFrom ev fn this items acc) := by
  fun_induction reduceFrom ev fn this items acc with
  | case1 acc => exact .pure trivial
  | case2 acc v i rest ih => exact .bind (calls _ _) fun acc _ => ih acc

theorem bounds_reduceItems (items : List (Value × Nat)) (initial : Option Value) :
    KeepsBounded (reduceItems ev fn this items initial) := by
  unfold reduceItems
  split
  · exact bounds_reduceFrom calls this _ _
  · exact bounds_reduceFrom calls this _ _
  · exact .throw _

theorem bounds_orderOf (a b : Value) : KeepsBounded (orderOf ev fn a b) := by
  unfold orderOf
  split
  · exact .pure trivial
  · exact .pure trivial
  · exact .pure trivial
  · split
    · refine .bind (calls _ _) fun v _ => .bind (.read _)
        fun x _ => ?_
      split
      · exact .pure trivial
      · split <;> exact .pure trivial
    · exact .read _

theorem bounds_isLess (a b : Value) (failure : Option ScriptError) :
    KeepsBounded ((isLess ev fn a b).run failure) := by
  unfold isLess
  simp only [StateT.run_bind, StateT.run_get, pure_bind]
  split
  · exact .pure trivial
  · rw [StateT.run_bind]
    refine .bind (P := fun _ => True) (.bind (.attempt (bounds_orderOf calls a b))
      fun answer _ => .pure trivial) fun answer _ => ?_
    cases answer.1 with
    | ok order => exact .pure trivial
    | error e => exact .pure trivial

/-- What only asks for comparisons gives what it gives whatever they answer. -/
theorem bounds_of_gives {α : Type} {x : StateT (Option ScriptError) Script α} {P : α → Prop}
    (h : Sorting.Gives (isLess ev fn) x P) (failure : Option ScriptError) :
    Bounds (x.run failure) (P ·.1) := by
  induction h generalizing failure with
  | pure h => exact .pure h
  | bind _ _ ihx ihf =>
    exact .bind (ihx failure) fun b hb => (ihf b.1 b.2).mono fun c hc => hc hb
  | less a b h => exact (bounds_isLess calls a b failure).mono fun answer _ => h answer.1

theorem bounds_sortItems (items : List Value) :
    Bounds (sortItems ev fn items) (·.length = items.length) := by
  unfold sortItems
  refine .bind (bounds_of_gives calls (Sorting.sort_perm items) none) fun outcome perm => ?_
  obtain ⟨sorted, failure⟩ := outcome
  cases sorted with
  | none => exact .throw _
  | some sorted =>
    cases failure with
    | some e => exact .throw e
    | none => exact .pure (perm sorted rfl).length_eq

end

section

variable {args : List Value}
  (calls : ∀ this list, KeepsBounded (ev.call (argument args 0) this list)) (ref : ArrayRef) (m : ArrayMethod) (short : ¬m.grows)

include calls short

theorem bounds_change : KeepsBounded (change ev ref m args) := by
  unfold change
  refine .bind (.read _) fun size _ => ?_
  split
  · cases short rfl
  · cases short rfl
  · refine .bind (.read _) fun last _ =>
      .bind (.modifyHeap fun h hb => hb.modifyItems ref ?_) fun _ _ => .pure trivial
    have := hb ref
    rw [Array.size_pop]
    omega
  · refine .bind (.read _) fun first _ =>
      .bind (.modifyHeap fun h hb => hb.modifyItems ref ?_) fun _ _ => .pure trivial
    have := hb ref
    rw [Array.size_extract]
    omega
  · cases short rfl
  · refine .bind (.modifyHeap fun h hb => hb.modifyItems ref ?_) fun _ _ => .pure trivial
    rw [Array.size_reverse]
    exact hb ref
  · refine .bind (.read _) fun range _ =>
      .bind (.modifyHeap fun h hb => hb.modifyItems ref ?_) fun _ _ => .pure trivial
    rw [Array.size_mapIdx]
    exact hb ref
  · refine .bind (.onHeap (P := fun items => items.length ≤ maxArrayLength) fun h hb => hb ref)
      fun items le => .bind (bounds_sortItems calls items) fun sorted length =>
        .bind (.modifyHeap fun h hb => hb.modifyItems ref ?_) fun _ _ => .pure trivial
    exact Nat.le_trans (Nat.le_of_eq length) le
  · exact .pure trivial

theorem bounds_callBack {items : List Value} (le : items.length ≤ maxArrayLength) :
    KeepsBounded (callBack ev ref m args items) := by
  have searched (wanted : Bool) (list : List (Value × Nat)) :=
    bounds_search calls (.array ref) wanted list
  unfold callBack
  refine .bind (bounds_requireCallback _) fun _ _ => ?_
  split
  · refine .bind (bounds_mapFrom calls _ items 0 #[]) fun out size => .array ?_
    rw [size, Array.size_empty, Nat.zero_add]
    exact le
  · refine .bind (bounds_filterFrom calls _ items 0 #[]) fun out size => .array ?_
    rw [Array.size_empty, Nat.zero_add] at size
    exact Nat.le_trans size le
  · cases short rfl
  · exact .bind (.forIn (fun p _ => .bind (calls _ _) fun _ _ => .pure trivial) _)
      fun _ _ => .pure trivial
  · exact .bind (searched _ _) fun _ _ => .pure trivial
  · exact .bind (searched _ _) fun _ _ => .pure trivial
  · exact .bind (searched _ _) fun _ _ => .pure trivial
  · exact .bind (searched _ _) fun _ _ => .pure trivial
  · exact .bind (searched _ _) fun _ _ => .pure trivial
  · exact .bind (searched _ _) fun _ _ => .pure trivial
  · exact bounds_reduceItems calls _ _ _
  · exact bounds_reduceItems calls _ _ _
  · exact .pure trivial

/-- A method that does not only add items leaves arrays short enough, if what it calls does. -/
theorem bounds_run : KeepsBounded (run ev ref m args) := by
  have changed := bounds_change calls ref m short
  have called : KeepsBounded
      (Script.onHeap (fun h => (h.items ref).toList) >>= callBack ev ref m args) :=
    .bind (.onHeap fun h hb => hb ref) fun items le => bounds_callBack calls ref m short le
  have read : KeepsBounded (Script.onHeap (fun h => h.items ref) >>= read ref m args) :=
    .bind (.onHeap fun h hb => hb ref) fun items le => bounds_read ref m args items short le
  unfold run
  split <;> first | exact changed | exact called | exact read

end

/-- How long `push`, `unshift` and `splice` leave an array. -/
def lengthAfter (m : ArrayMethod) (h : Heap) (ref : ArrayRef) (args : List Value) : Nat :=
  let size := (h.items ref).size
  match m with
  | splice =>
    let start := (sliceRange h size (argument args 0) .undefined).1
    let stop := start + spliceCount h args (size - start)
    min start size + (args.length - 2) + (size - stop)
  | _ => size + args.length

/-- One that adds its arguments keeps the bound exactly when there is room for them. -/
theorem bounded_change_iff {m : Machine} (hb : m.heap.Bounded) {ref : ArrayRef}
    (lt : ref.index < m.heap.arrays.size) {method : ArrayMethod}
    (adds : method = push ∨ method = unshift ∨ method = splice) (args : List Value) :
    Ends (change ev ref method args) m
      (fun _ m' => m'.heap.Bounded ↔ method.lengthAfter m.heap ref args ≤ maxArrayLength)
      fun _ => False := by
  rcases adds with rfl | rfl | rfl
  · simp only [change, ends_bind, ends_onHeap, ends_modifyHeap, ends_pure]
    rw [hb.modifyItems_iff lt, ← Array.length_toList, Array.toList_appendList, List.length_append,
      Array.length_toList]
    rfl
  · simp only [change, ends_bind, ends_onHeap, ends_modifyHeap, ends_pure]
    rw [hb.modifyItems_iff lt, Array.size_append, List.size_toArray, Nat.add_comm]
    rfl
  · have short : (m.heap.items ref).size < 2 ^ 53 := Nat.lt_of_le_of_lt (hb ref) (by decide)
    have start := sliceStart_le m.heap short (argument args 0) .undefined
    simp only [change, ends_bind, ends_onHeap]
    rw [ends_spliceRange start (Nat.lt_trans short (by decide))]
    simp only [ends_modifyHeap, ends_alloc, Alloc.array]
    rw [Heap.bounded_newArray_iff, hb.modifyItems_iff lt, Array.size_append, Array.size_extract,
      ← Array.length_toList, Array.toList_appendList, List.length_append, Array.length_toList,
      Array.size_extract, List.length_drop, Nat.min_self, Nat.sub_zero]
    refine and_iff_left ?_
    have := hb ref
    rw [Array.size_extract]
    omega

end ArrayMethod

/-! ## Functions -/

namespace ArrayFunction

variable {ev : Evaluator}

theorem bounds_construct (x : Float) : KeepsBounded (construct [.number x]) := by
  unfold construct
  refine .bind (.arrayLength x) fun n le => .array ?_
  rw [Array.size_replicate]
  exact le

theorem bounds_getProperty (r : ObjectRef) (key : String) :
    KeepsBounded (getProperty (.object r) key) := by
  unfold getProperty
  refine .bind (.read _) fun found _ => ?_
  split
  · exact .pure trivial
  · split
    · exact .native _
    · exact .native _
    · exact .pure trivial

theorem bounds_sourceItems (source : Value) (text : ∀ s, source ≠ .string s) :
    Bounds (sourceItems source) (·.length ≤ maxArrayLength) := by
  unfold sourceItems
  split
  · refine .bind (bounds_getProperty _ _) fun v _ => .bind (.read _) fun x _ =>
      .bind (.arrayLength _) fun n le => .pure ?_
    rw [List.length_replicate]
    exact le
  · rename_i r
    exact .onHeap (P := fun (items : List Value) => items.length ≤ maxArrayLength) fun h hb => hb r
  · exact absurd rfl (text _)
  · exact .pure (Nat.zero_le _)

section

variable {fn : Value} (calls : ∀ this args, KeepsBounded (ev.call fn this args))

include calls

theorem bounds_mapPairs (items : List Value) (i : Nat) (out : Array Value) :
    Bounds (mapPairs ev fn items i out) (·.size = out.size + items.length) := by
  fun_induction mapPairs ev fn items i out with
  | case1 i out => exact .pure rfl
  | case2 i out v rest ih =>
    refine .bind (calls _ _) fun mapped _ => (ih mapped).mono fun all size => ?_
    rw [size, Array.size_push, List.length_cons]
    omega

end

theorem bounds_ofSource {args : List Value}
    (calls : ∀ this list, KeepsBounded (ev.call (argument args 1) this list))
    (text : ∀ s, argument args 0 ≠ .string s) : KeepsBounded (ofSource.run ev args) := by
  unfold run
  refine .bind (bounds_sourceItems _ text) fun items le => ?_
  dsimp only
  split
  · refine .bind (bounds_mapPairs calls items 0 #[]) fun out size => .array ?_
    rw [size, Array.size_empty, Nat.zero_add]
    exact le
  · exact .ofList le

end ArrayFunction

/-! ## Evaluation -/

namespace Evaluator

variable {ev : Evaluator}

/-- A host function leaves arrays short enough if what it does leaves them so. -/
theorem bounds_callValue_native {id : Identity} {fn : HostFunction} {statics : Option ObjectRef}
    {this : Value} {args : List Value} (h : KeepsBounded (ev.callHost fn this args)) :
    KeepsBounded (ev.callValue (.native id fn statics) this args) := by
  have opened : KeepsBounded (deeper (ev.callHost fn this args)) := by
    intro m hb
    simp only [deeper, ends_bind, ends_modifyRealm]
    exact ends_finallyModify ((h { m with realm := { m.realm with depth := m.realm.depth + 1 } }
      hb).mono (fun _ _ hb => hb) fun _ hb => ⟨hb, hb⟩)
  unfold callValue
  dsimp only [Value.isCallable]
  refine .bind (.realm _) fun depth _ => ?_
  split
  · exact .bind (P := fun _ => True) (.throw _) fun _ _ => opened
  · exact opened

/-- Which operations keep arrays as short as a script may make one: they look at the length first,
or need not. -/
structure ChecksLengths (ev : Evaluator) : Prop where
  /-- Assignments to indexes and to lengths. -/
  setProperty (object : Value) (key : String) (value : Value) :
    KeepsBounded (setProperty object key value)
  /-- `new Array(n)` -/
  construct (x : Float) : KeepsBounded (ArrayFunction.construct [.number x])
  /-- `Array.from`, unless its source is a text. -/
  ofSource (args : List Value) : (∀ s, argument args 0 ≠ .string s) →
    (∀ this list, KeepsBounded (ev.call (argument args 1) this list)) →
      KeepsBounded (ArrayFunction.ofSource.run ev args)
  /-- The methods that do not only add items, if the functions that they call keep the bound. -/
  run (method : ArrayMethod) (ref : ArrayRef) (args : List Value) : ¬method.grows →
    (∀ this list, KeepsBounded (ev.call (argument args 0) this list)) →
      KeepsBounded (method.run ev ref args)
  /-- What adds its arguments does not look: it keeps the bound exactly if they fit. -/
  adds (m : Machine) (ref : ArrayRef) (method : ArrayMethod) (args : List Value) :
    m.heap.Bounded → ref.index < m.heap.arrays.size →
      method = .push ∨ method = .unshift ∨ method = .splice →
        Ends (method.run ev ref args) m (fun _ m' => m'.heap.Bounded ↔
          method.lengthAfter m.heap ref args ≤ maxArrayLength) fun _ => False
  /-- Neither does what makes an array of items, such as a literal or `concat`. -/
  ofList (m : Machine) (items : List Value) : m.heap.Bounded →
    Ends (liftM (Alloc.ofList items)) m
      (fun _ m' => m'.heap.Bounded ↔ items.length ≤ maxArrayLength) fun _ => False

theorem checksLengths (ev : Evaluator) : ev.ChecksLengths where
  setProperty := bounds_setProperty
  construct := ArrayFunction.bounds_construct
  ofSource _ text calls := ArrayFunction.bounds_ofSource calls text
  run method ref _ short calls := ArrayMethod.bounds_run calls ref method short
  adds m ref method args hb lt adds := by
    have changed : Ends (ArrayMethod.change ev ref method args) m _ _ :=
      ArrayMethod.bounded_change_iff hb lt adds args
    rcases adds with rfl | rfl | rfl <;> exact changed
  ofList m items hb := by
    rw [ends_alloc]
    exact Heap.bounded_newArray_iff.trans (and_iff_right hb)

/-- Calls of `Array.isArray` are such; and an item is pushed. -/
theorem checksLengths_standard :
    KeepsBounded (ArrayMethod.map.run standard ⟨0⟩
      [.native (.made 0) (.arrayFunction .isArray) none]) ∧
    KeepsBounded (ArrayFunction.ofSource.run standard
      [.object ⟨0⟩, .native (.made 0) (.arrayFunction .isArray) none]) ∧
    Ends (ArrayMethod.push.run standard ⟨0⟩ [.null])
      ⟨(({} : Heap).newArray #[.null]).2, default, #[]⟩
      (fun _ m' => m'.heap.Bounded ↔ 2 ≤ maxArrayLength) fun _ => False := by
  have calls (this : Value) (list : List Value) : KeepsBounded
      (standard.call (.native (.made 0) (.arrayFunction .isArray) none) this list) := by
    have asked : KeepsBounded
        ((atLevel (levels - 1)).callHost (.arrayFunction .isArray) this list) := .pure trivial
    have called : KeepsBounded ((atLevel (levels - 1)).callValue
        (.native (.made 0) (.arrayFunction .isArray) none) this list) :=
      bounds_callValue_native asked
    rw [standard_eq (n := 1) (by decide)]
    exact called
  have bounded : ((({} : Heap).newArray #[.null]).2).Bounded :=
    Heap.bounded_newArray_iff.mpr ⟨fun _ => Nat.zero_le _, by decide⟩
  exact ⟨(checksLengths standard).run .map ⟨0⟩ _ (by decide) calls,
    (checksLengths standard).ofSource _ nofun calls,
    (checksLengths standard).adds _ _ _ _ bounded (by decide) (.inl rfl)⟩

end Evaluator

/-! ## A literal that spreads an array -/

theorem Script.arrayLength_eq {x : Float} {n : Nat} (whole : Binary64.toInt? x = some n)
    (le : n ≤ maxArrayLength) : arrayLength x = pure n := by
  unfold arrayLength
  simp [whole, le]

namespace Evaluator

variable {levels : Nat} {m : Machine} {scope : ScopeRef}

/-- `new Array(n)` under a name that is declared as `Array`. -/
theorem ends_new_array {post : Value → Machine → Prop} {fail : Machine → Prop} {s₁ s₂ s₃ : Span}
    {name : String} {id : Identity} {statics : Option ObjectRef} {x : Float} {n : Nat}
    (free : m.realm.config.stepLimit = none) (shallow : m.realm.depth < maxDepth)
    (found : m.heap.lookup scope name = some (.native id (.constructor .array) statics))
    (length : arrayLength x = pure n)
    (hp : ∀ m', m'.realm.config.stepLimit = none →
      m'.heap = (m.heap.newArray (Array.replicate n .undefined)).2 →
      post (.array ⟨m.heap.arrays.size⟩) m') :
    Ends ((atLevel (levels + 2)).eval (.new s₁ (.ident s₂ name) [.expr (.number s₃ x)]) scope) m
      post fail := by
  rw [eval_succ]
  unfold evalExpr
  simp only [ends_bind, ends_tick]
  refine ⟨fun spent => absurd spent (Machine.not_spent free), fun _ => ?_⟩
  rw [ends_eval_ident (m := m.ticked) found]
  refine ⟨fun spent => absurd spent (Machine.not_spent free), fun _ => ?_⟩
  simp only [evalItems, ends_bind, ends_eval_number, ends_pure]
  refine ⟨fun spent => absurd spent (Machine.not_spent free), fun _ => ?_⟩
  refine ends_call_native shallow ?_
  show Ends (ArrayFunction.construct [.number x]) _ _ _
  simp only [ArrayFunction.construct, length, pure_bind, ends_alloc]
  exact hp _ free rfl

/-- A literal that spreads an array is longer than that by its other items. -/
theorem ends_spread_array {s₁ s₂ s₃ s₄ s₅ s₆ : Span} {name : String} {id : Identity}
    {statics : Option ObjectRef} {x y : Float} {n : Nat}
    (free : m.realm.config.stepLimit = none) (shallow : m.realm.depth < maxDepth)
    (found : m.heap.lookup scope name = some (.native id (.constructor .array) statics))
    (length : arrayLength x = pure n) :
    Ends ((atLevel (levels + 4)).exec (.expr s₁ (.array s₂ [.spread (.new s₃ (.ident s₄ name)
        [.expr (.number s₅ x)]), .expr (.number s₆ y)])) scope) m
      (fun c m' => c = .normal ∧ ∃ r, (m'.heap.items r).size = n + 1) fun _ => False := by
  rw [exec_succ]
  unfold execStmt
  simp only [ends_bind, ends_tick]
  refine ⟨(Machine.not_spent free), fun _ => ends_located ?_⟩
  unfold execKind
  rw [ends_bind, eval_succ]
  unfold evalExpr
  simp only [ends_bind, ends_tick, evalItems]
  refine ⟨fun spent => absurd spent (Machine.not_spent (m := m.ticked) free), fun _ => ?_⟩
  refine ends_new_array (m := m.ticked.ticked) free shallow found length fun m' free' eq => ?_
  have items : m'.heap.items ⟨m.heap.arrays.size⟩ = Array.replicate n .undefined := by
    rw [eq]
    exact Heap.items_newArray _ _
  simp only [iterate, ends_onHeap, ends_eval_number, ends_pure, ends_alloc, true_and]
  refine ⟨fun spent => absurd spent (Machine.not_spent free'), fun _ => ?_⟩
  refine ⟨_, (congrArg Array.size (Heap.items_newArray _ _)).trans ?_⟩
  simp [items]

/-- The same, as a module. -/
theorem ends_runModule_spread {path : String} {s₁ s₂ s₃ s₄ s₅ s₆ : Span} {name : String}
    {id : Identity} {statics : Option ObjectRef} {x y : Float} {n : Nat}
    (free : m.realm.config.stepLimit = none) (shallow : m.realm.depth < maxDepth)
    (found : m.heap.lookup scope name = some (.native id (.constructor .array) statics))
    (length : arrayLength x = pure n) :
    Ends (runModule path [.expr s₁ (.array s₂ [.spread (.new s₃ (.ident s₄ name)
        [.expr (.number s₅ x)]), .expr (.number s₆ y)])] scope) m
      (fun _ m' => ∃ r, (m'.heap.items r).size = n + 1) fun _ => False := by
  unfold runModule execModule inModule execBlock
  simp only [hoist, execAll, ends_bind, ends_onRealm, ends_modifyRealm, pure_bind]
  refine ends_finallyModify ?_
  rw [ends_bind, ends_bind, standard_eq (n := 4) (by decide)]
  refine (ends_spread_array (m := { m with realm.path := path }) free shallow found length).mono
    ?_ fun _ => False.elim
  rintro _ m' ⟨rfl, long⟩
  exact long

/-- The name and the length in a statement that spreads an array of that length. -/
def spreadOf? : Stmt → Option (String × Float)
  | .expr _ (.array _ [.spread (.new _ (.ident _ name) [.expr (.number _ x)]),
      .expr (.number _ _)]) => some (name, x)
  | _ => none

theorem exists_of_spreadOf? {s : Stmt} {name : String} {x : Float}
    (h : spreadOf? s = some (name, x)) :
    ∃ s₁ s₂ s₃ s₄ s₅ s₆ y, s = .expr s₁ (.array s₂ [.spread (.new s₃ (.ident s₄ name)
      [.expr (.number s₅ x)]), .expr (.number s₆ y)]) := by
  unfold spreadOf? at h
  split at h
  · cases h
    exact ⟨_, _, _, _, _, _, _, rfl⟩
  · cases h

/-- Whether a value is `Array`. -/
def isArrayConstructor : Value → Bool
  | .native _ (.constructor .array) _ => true
  | _ => false

theorem exists_of_isArrayConstructor {v : Value} (h : isArrayConstructor v) :
    ∃ id statics, v = .native id (.constructor .array) statics := by
  unfold isArrayConstructor at h
  split at h
  · exact ⟨_, _, rfl⟩
  · cases h

/-- A spread of the longest array that can be made, and one more item. -/
theorem not_bounded_spread :
    ∃ m r, runLone? {} "[...new Array(4194304), 0];" = some (.ok (), m) ∧
      maxArrayLength < (m.heap.items r).size := by
  have read : (Executable.ofLoneText "/App.tsx" "[...new Array(4194304), 0];").toOption.any
      (fun e => e.body.body.length = 1 ∧ (e.body.body.head?.bind spreadOf?).any fun found =>
        found.1 = "Array" ∧ Binary64.toInt? found.2 = some 4194304) = true := by
    decide +kernel
  let fresh := (Machine.ofConfig {}).alloc fun h =>
    h.newScope (some (Machine.ofConfig {}).realm.globals)
  have started : (fresh.2.realm.config.stepLimit.isNone ∧ fresh.2.realm.depth < maxDepth) ∧
      (fresh.2.heap.lookup fresh.1 "Array").any isArrayConstructor = true := by
    decide +kernel
  cases parsed : Executable.ofLoneText "/App.tsx" "[...new Array(4194304), 0];" with
  | error e =>
    rw [parsed] at read
    cases read
  | ok e =>
    rw [parsed, Except.toOption, Option.any_some] at read
    have run : runLone? {} "[...new Array(4194304), 0];" =
        some ((runModule e.path e.body.body fresh.1).outcome fresh.2) := by
      unfold runLone?
      rw [parsed]
    clear_value fresh
    obtain ⟨⟨free, shallow⟩, declared⟩ := started
    obtain ⟨v, found, native⟩ := (Option.any_eq_true _ _).1 declared
    obtain ⟨id, statics, rfl⟩ := exists_of_isArrayConstructor native
    obtain ⟨alone, shape⟩ := of_decide_eq_true read
    obtain ⟨s, body⟩ := List.length_eq_one_iff.mp alone
    rw [body] at run shape
    obtain ⟨⟨name, x⟩, spread, shape⟩ := (Option.any_eq_true _ _).1 shape
    obtain ⟨rfl, whole⟩ := of_decide_eq_true shape
    obtain ⟨_, _, _, _, _, _, _, rfl⟩ := exists_of_spreadOf? spread
    have length := arrayLength_eq (n := 4194304) whole (by decide)
    obtain ⟨_, m, ran, r, long⟩ := (ends_runModule_spread (Option.isNone_iff_eq_none.mp free)
      shallow found length).exists_outcome
    exact ⟨m, r, run.trans (congrArg some ran), Nat.lt_of_lt_of_eq (by decide) long.symm⟩

end Evaluator

end TsxPreview
