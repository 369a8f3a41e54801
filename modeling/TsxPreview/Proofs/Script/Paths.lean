import TsxPreview.Proofs.Script.Relations

/-!
Evaluation that only looks at the machine. A path, from a name or a literal on through properties
that are there, is such: it gives a value and takes steps. To read any property and to compute with
values takes at most a number besides, for a method that is made anew each time it is read.
-/

namespace TsxPreview

open Script

/-! ## Steps -/

namespace Machine

/-- The machine after more steps of evaluation. -/
def later (m : Machine) (steps : Nat) : Machine :=
  { m with realm := { m.realm with steps := m.realm.steps + steps } }

@[simp] theorem later_heap (m : Machine) (steps : Nat) : (m.later steps).heap = m.heap := rfl

@[simp] theorem later_config (m : Machine) (steps : Nat) :
    (m.later steps).realm.config = m.realm.config := rfl

@[simp] theorem later_later (m : Machine) (i j : Nat) : (m.later i).later j = m.later (i + j) := by
  simp [later, Nat.add_assoc]

/-- The machine with its steps not counted. -/
def uncounted (m : Machine) : Machine := { m with realm := { m.realm with steps := 0 } }

@[simp] theorem uncounted_later (m : Machine) (steps : Nat) :
    (m.later steps).uncounted = m.uncounted := rfl

end Machine

namespace Script

variable {α : Type}

/-- Two outcomes that differ in the number of steps at most. -/
def Alike (a b : Except ScriptError α × Machine) : Prop :=
  a.1 = b.1 ∧ a.2.uncounted = b.2.uncounted

theorem Alike.refl (a : Except ScriptError α × Machine) : Alike a a := ⟨rfl, rfl⟩

@[simp] theorem outcome_pure (a : α) (m : Machine) : (pure a : Script α).outcome m = (.ok a, m) :=
  rfl

theorem alike_then_iff {x y : Script Unit} {a : α} {m : Machine} :
    Alike ((do x; return a).outcome m) ((do y; return a).outcome m) ↔
      Alike (x.outcome m) (y.outcome m) := by
  rw [outcome_bind, outcome_bind]
  rcases x.outcome m with ⟨_ | _, _⟩ <;> rcases y.outcome m with ⟨_ | _, _⟩ <;> simp [Alike]

end Script

/-! ## Paths -/

section

variable (h : Heap) (scope : ScopeRef)

/-- The value of a literal or of a name that is declared. -/
def Expr.atom? : Expr → Option Value
  | .number _ x => some (.number x)
  | .string _ s => some (.string s)
  | .bool _ b => some (.bool b)
  | .null _ => some .null
  | .ident _ name => h.lookup scope name
  | _ => none

/-- A key that is fixed, a literal or a name. -/
def Key.atom? : Key → Option String
  | .named name => some name
  | .computed e => (e.atom? h scope).map (·.key h)

/-- A property that an object or an array has of its own. -/
def Value.own? : Value → String → Option Value
  | .object r, key => (h.members r).get? key
  | .array r, key =>
    if key = "length" then some (.ofNat (h.items r).size)
    else (arrayIndex? key).map fun i => ((h.items r)[i]?).getD .undefined
  | _, _ => none

/-- The value at the end of a path: from a name or a literal on through properties. -/
def Expr.path? : Expr → Option Value
  | .member _ base key false => do
    let o ← path? base
    let k ← key.atom? h scope
    o.own? h k
  | e => e.atom? h scope

end

namespace Script

variable {α β : Type} {x : Script α} {f : α → Script β} {a : α} {b : β} {m : Machine}

theorem ends_of_forall {post : α → Machine → Prop} {fail : Machine → Prop}
    (hp : ∀ a m', post a m') (hf : ∀ m', fail m') : Ends x m post fail := by
  unfold Ends
  cases x m with
  | ok a m' => exact hp a m'
  | error e m' => exact hf m'

theorem Ends.of_outcome {post : α → Machine → Prop} {fail : Machine → Prop} {m' : Machine}
    (h : Ends x m post fail) (ran : x.outcome m = (.ok a, m')) : post a m' := by
  unfold Ends at h
  unfold outcome at ran
  cases eq : x m with
  | ok b m'' =>
    rw [eq] at h ran
    cases ran
    exact h
  | error e m'' =>
    rw [eq] at ran
    cases ran

/-- A computation that gives a value and changes nothing but the number of steps. -/
def Finds (x : Script α) (a : α) (m : Machine) : Prop :=
  Ends x m (fun b m' => b = a ∧ ∃ steps, m' = m.later steps) fun _ => False

theorem finds_pure (a : α) (m : Machine) : Finds (pure a) a m := ⟨rfl, 0, rfl⟩

theorem finds_onHeap (g : Heap → α) (m : Machine) : Finds (onHeap g) (g m.heap) m := ⟨rfl, 0, rfl⟩

theorem finds_tick (unlimited : m.realm.config.stepLimit = none) : Finds tick () m := by
  rw [Finds, ends_tick]
  exact ⟨Machine.not_spent unlimited, fun _ => ⟨rfl, 1, rfl⟩⟩

theorem Finds.bind (hx : Finds x a m) (hf : ∀ steps, Finds (f a) b (m.later steps)) :
    Finds (x >>= f) b m := by
  rw [Finds, ends_bind]
  refine hx.mono ?_ fun _ => id
  rintro _ _ ⟨rfl, steps, rfl⟩
  refine (hf steps).mono ?_ fun _ => id
  rintro _ _ ⟨rfl, more, rfl⟩
  exact ⟨rfl, steps + more, by simp⟩

theorem finds_stepped (unlimited : m.realm.config.stepLimit = none)
    (hx : ∀ steps, Finds x a (m.later steps)) : Finds (do tick; x) a m :=
  (finds_tick unlimited).bind hx

theorem Finds.ends_bind {post : β → Machine → Prop} {fail : Machine → Prop} (hx : Finds x a m)
    (hf : ∀ steps, Ends (f a) (m.later steps) post fail) : Ends (x >>= f) m post fail := by
  rw [Script.ends_bind]
  refine hx.mono ?_ fun _ => False.elim
  rintro _ _ ⟨rfl, steps, rfl⟩
  exact hf steps

/-- What comes after it runs as if it had come at once, but for steps. -/
theorem Finds.outcome_bind (hx : Finds x a m) :
    ∃ steps, (x >>= f).outcome m = (f a).outcome (m.later steps) := by
  obtain ⟨_, _, ran, rfl, steps, rfl⟩ := hx.exists_outcome
  exact ⟨steps, by rw [Script.outcome_bind, ran]⟩

end Script

namespace Evaluator

variable (levels : Nat) {scope : ScopeRef} {m : Machine} {o v : Value} {k : String} {e : Expr}
  {key : Key}

theorem finds_eval_atom (unlimited : m.realm.config.stepLimit = none)
    (known : e.atom? m.heap scope = some v) : Finds ((atLevel (levels + 1)).eval e scope) v m := by
  rw [eval_succ]
  unfold evalExpr
  refine finds_stepped unlimited fun steps => ?_
  cases e with
  | number | string | bool | null =>
    cases known
    exact finds_pure _ _
  | ident _ name =>
    have found : (m.later steps).heap.lookup scope name = some v := known
    refine (finds_onHeap _ _).bind fun _ => ?_
    rw [found]
    exact finds_pure _ _
  | _ => cases known

theorem finds_keyName (unlimited : m.realm.config.stepLimit = none)
    (known : key.atom? m.heap scope = some k) :
    Finds ((atLevel (levels + 1)).keyName scope key) k m := by
  cases key with
  | named name =>
    cases known
    exact finds_pure _ _
  | computed e =>
    obtain ⟨v, atom, rfl⟩ := Option.map_eq_some_iff.1 known
    exact (finds_eval_atom levels unlimited atom).bind fun _ => finds_onHeap _ _

theorem finds_getProperty (own : o.own? m.heap k = some v) : Finds (getProperty o k) v m := by
  cases o with
  | object r =>
    refine (finds_onHeap _ _).bind fun _ => ?_
    have found : (m.heap.members r).get? k = some v := own
    rw [found]
    exact finds_pure _ _
  | array r =>
    have own : (if k = "length" then some (.ofNat (m.heap.items r).size)
        else (arrayIndex? k).map fun i => ((m.heap.items r)[i]?).getD .undefined) = some v := own
    by_cases length : k = "length"
    · rw [if_pos length] at own
      cases own
      simp only [getProperty, if_pos length]
      exact finds_onHeap _ _
    · rw [if_neg length] at own
      obtain ⟨i, index, rfl⟩ := Option.map_eq_some_iff.1 own
      simp only [getProperty, if_neg length, index]
      exact finds_onHeap _ _
  | _ => cases own

/-- Along a path nothing is evaluated but names and literals. -/
theorem finds_evalChain (unlimited : m.realm.config.stepLimit = none)
    (known : e.path? m.heap scope = some v) :
    Finds ((atLevel (levels + 1)).evalChain scope e) (some v) m := by
  fun_induction Expr.path? m.heap scope e generalizing v with
  | case1 at' base key ih =>
    obtain ⟨o, first, known⟩ := Option.bind_eq_some_iff.1 known
    obtain ⟨k, second, own⟩ := Option.bind_eq_some_iff.1 known
    refine (ih first).bind fun i => ?_
    refine (finds_keyName levels (m := m.later i) unlimited second).bind fun j => ?_
    exact (finds_getProperty (m := (m.later i).later j) own).bind fun _ => finds_pure _ _
  | case2 e other =>
    have value := finds_eval_atom levels unlimited known
    cases e with
    | number | string | bool | null | ident => exact value.bind fun _ => finds_pure _ _
    | _ => cases known

theorem finds_eval_path (unlimited : m.realm.config.stepLimit = none)
    (known : e.path? m.heap scope = some v) : Finds ((atLevel (levels + 2)).eval e scope) v m := by
  cases e with
  | member at' base key isOptional =>
    cases isOptional with
    | true => cases known
    | false =>
      rw [eval_succ]
      unfold evalExpr
      refine finds_stepped unlimited fun i => ?_
      have chained := finds_evalChain levels (m := m.later i) unlimited known
      exact chained.bind fun _ => finds_pure _ _
  | number | string | bool | null | ident => exact finds_eval_atom (levels + 1) unlimited known
  | _ => cases known

end Evaluator

/-! ## Reading and computing -/

namespace Heap

variable (h : Heap) (id : Nat)

/-- The heap with another number to give out. -/
def withId : Heap := { h with nextId := id }

theorem findFrom_withId (name : String) (levels : Nat) (scope : ScopeRef) :
    (h.withId id).findFrom name levels scope = h.findFrom name levels scope := by
  induction levels generalizing scope with
  | zero => rfl
  | succ levels ih =>
    have next : (h.withId id).findFrom name levels = h.findFrom name levels := funext ih
    rw [findFrom, findFrom, next]
    rfl

theorem lookup_withId (scope : ScopeRef) (name : String) :
    (h.withId id).lookup scope name = h.lookup scope name :=
  congrArg (Option.map _) (findFrom_withId h id name _ scope)

end Heap

section

variable (h : Heap) (id : Nat)

theorem Value.textAt?_withId (levels : Nat) (v : Value) :
    v.textAt? (h.withId id) levels = v.textAt? h levels := by
  induction levels generalizing v with
  | zero => cases v <;> rfl
  | succ levels ih =>
    cases v with
    | array r =>
      have items : (h.withId id).items r = h.items r := rfl
      simp only [Value.textAt?, ih, items]
    | _ => rfl

theorem Expr.atom?_withId (scope : ScopeRef) (e : Expr) :
    e.atom? (h.withId id) scope = e.atom? h scope := by
  cases e with
  | ident _ name => exact h.lookup_withId id scope name
  | _ => rfl

theorem Key.atom?_withId (scope : ScopeRef) (key : Key) :
    key.atom? (h.withId id) scope = key.atom? h scope := by
  cases key with
  | named name => rfl
  | computed e =>
    have text (v : Value) : v.key (h.withId id) = v.key h :=
      congrArg (·.getD "") (Value.textAt?_withId h id Heap.levels v)
    simp only [Key.atom?, Expr.atom?_withId, text]

theorem Expr.path?_withId (scope : ScopeRef) (e : Expr) :
    e.path? (h.withId id) scope = e.path? h scope := by
  fun_induction Expr.path? h scope e with
  | case1 at' base key ih =>
    have own (o : Value) (k : String) : o.own? (h.withId id) k = o.own? h k := by
      cases o <;> rfl
    simp only [Expr.path?, ih, Key.atom?_withId, own]
  | case2 e other =>
    rw [← Expr.atom?_withId h id scope e]
    cases e with
    | member at' base key isOptional =>
      cases isOptional with
      | false => exact absurd rfl (other at' base key)
      | true => rfl
    | _ => rfl

end

namespace Machine

/-- The same machine but for its steps and the next number that it gives out. -/
def Unchanged (m m' : Machine) : Prop :=
  ∃ id steps, m' = { m.later steps with heap := m.heap.withId id }

variable {m m' m'' : Machine}

theorem Unchanged.refl (m : Machine) : m.Unchanged m := ⟨m.heap.nextId, 0, rfl⟩

theorem Unchanged.trans (first : m.Unchanged m') (second : m'.Unchanged m'') :
    m.Unchanged m'' := by
  obtain ⟨_, i, rfl⟩ := first
  obtain ⟨id, j, rfl⟩ := second
  exact ⟨id, i + j, by rw [← later_later]; rfl⟩

theorem unchanged_later (m : Machine) (steps : Nat) : m.Unchanged (m.later steps) :=
  ⟨m.heap.nextId, steps, rfl⟩

theorem Unchanged.stepLimit (same : m.Unchanged m') :
    m'.realm.config.stepLimit = m.realm.config.stepLimit := by
  obtain ⟨_, _, rfl⟩ := same
  rfl

theorem Unchanged.path? (same : m.Unchanged m') (scope : ScopeRef) (e : Expr) :
    e.path? m'.heap scope = e.path? m.heap scope := by
  obtain ⟨id, _, rfl⟩ := same
  exact e.path?_withId m.heap id scope

theorem Unchanged.key? (same : m.Unchanged m') (scope : ScopeRef) (key : Key) :
    key.atom? m'.heap scope = key.atom? m.heap scope := by
  obtain ⟨id, _, rfl⟩ := same
  exact key.atom?_withId m.heap id scope

end Machine

namespace Script

open Machine (Unchanged)

theorem unchanged_onHeap {α : Type} (f : Heap → α) : Within Unchanged (onHeap f) := Unchanged.refl

theorem unchanged_pure {α : Type} (a : α) : Within Unchanged (pure a : Script α) := Unchanged.refl

theorem unchanged_typeError {α : Type} (fault : TypeFault) :
    Within Unchanged (typeError fault : Script α) := Unchanged.refl

theorem unchanged_native (fn : HostFunction) : Within Unchanged (Alloc.native fn : Script Value) :=
  fun m => ⟨m.heap.nextId + 1, 0, rfl⟩

theorem unchanged_nativeOr {α : Type} (method : Option α) (fn : α → HostFunction) :
    Within Unchanged (nativeOr method fn) := by
  cases method with
  | none => exact unchanged_pure _
  | some method => exact unchanged_native (fn method)

theorem unchanged_functionProperty (fn : Value) (name key : String) :
    Within Unchanged (functionProperty fn name key) := by
  unfold functionProperty
  split
  · exact unchanged_pure _
  · exact unchanged_native _
  · exact unchanged_native _
  · exact unchanged_native _
  · exact unchanged_pure _

theorem unchanged_getProperty (o : Value) (key : String) :
    Within Unchanged (getProperty o key) := by
  cases o with
  | undefined | null => exact unchanged_typeError _
  | object r =>
    refine (unchanged_onHeap _).bind .trans fun own => ?_
    split
    · exact unchanged_pure _
    · split
      · exact unchanged_native _
      · exact unchanged_native _
      · exact unchanged_pure _
  | array r =>
    unfold getProperty
    dsimp only
    split
    · exact unchanged_onHeap _
    · split
      · exact unchanged_onHeap _
      · exact unchanged_nativeOr _ _
  | string s =>
    unfold getProperty
    dsimp only
    split
    · exact unchanged_pure _
    · split
      · exact unchanged_pure _
      · exact unchanged_nativeOr _ _
  | number x => exact unchanged_nativeOr _ _
  | bool b =>
    unfold getProperty
    dsimp only
    split
    · exact unchanged_native _
    · exact unchanged_pure _
  | closure => exact unchanged_functionProperty _ _ _
  | native id fn statics =>
    have rest (own : Value) : Within Unchanged
        (if own.isUndefined then functionProperty (.native id fn statics) fn.name key
          else pure own) := by
      split
      · exact unchanged_functionProperty _ _ _
      · exact unchanged_pure _
    cases statics with
    | none => exact (unchanged_pure _).bind .trans rest
    | some r => exact (unchanged_onHeap _).bind .trans rest
  | element | icons => exact unchanged_pure _

theorem unchanged_hasProperty (o : Value) (key : String) :
    Within Unchanged (hasProperty o key) := by
  cases o with
  | object | array | icons => exact Unchanged.refl
  | closure | native | element =>
    exact (unchanged_getProperty _ key).bind .trans fun _ => unchanged_pure _
  | _ => exact (unchanged_onHeap _).bind .trans fun _ => unchanged_typeError _

theorem unchanged_binary (op : BinaryOp) (a b : Value) : Within Unchanged (binary op a b) := by
  cases op with
  | «in» =>
    refine (unchanged_onHeap _).bind .trans fun key => ?_
    exact (unchanged_hasProperty b key).bind .trans fun _ => unchanged_pure _
  | _ => exact Unchanged.refl

end Script

/-! ## Storing does not depend on steps -/

namespace Script

variable {α β : Type} {x : Script α} {f : α → Script β}

/-- A computation that neither counts steps nor sees how many there were. -/
def Timeless (x : Script α) : Prop :=
  ∀ m steps, x.outcome (m.later steps) = ((x.outcome m).1, (x.outcome m).2.later steps)

theorem timeless_pure (a : α) : Timeless (pure a) := fun _ _ => rfl

theorem timeless_onHeap (f : Heap → α) : Timeless (onHeap f) := fun _ _ => rfl

theorem timeless_modifyHeap (f : Heap → Heap) : Timeless (modifyHeap f) := fun _ _ => rfl

theorem timeless_throw (e : ScriptError) : Timeless (throw e : Script α) := fun _ _ => rfl

theorem Timeless.bind (hx : Timeless x) (hf : ∀ a, Timeless (f a)) : Timeless (x >>= f) := by
  intro m steps
  rw [Script.outcome_bind, Script.outcome_bind, hx m steps]
  rcases x.outcome m with ⟨e | a, m'⟩
  · rfl
  · exact hf a m' steps

theorem timeless_arrayLength (x : Float) : Timeless (arrayLength x) := by
  unfold arrayLength
  split
  · split
    · exact timeless_pure _
    · exact timeless_throw _
  · exact timeless_throw _

theorem timeless_setProperty (o : Value) (k : String) (v : Value) :
    Timeless (setProperty o k v) := by
  cases o with
  | undefined | null => exact timeless_throw _
  | object r => exact timeless_modifyHeap fun h => h.modifyMembers r (·.insert k v)
  | array r =>
    simp only [setProperty]
    split
    · refine (timeless_onHeap _).bind fun x => (timeless_arrayLength x).bind fun length => ?_
      exact timeless_modifyHeap _
    · split
      · exact timeless_pure _
      · refine (timeless_onHeap _).bind fun size => ?_
        split
        · exact timeless_modifyHeap _
        · exact (timeless_arrayLength _).bind fun length => timeless_modifyHeap _
  | _ => exact timeless_pure _

theorem Timeless.alike (hx : Timeless x) (m : Machine) (steps : Nat) :
    Alike (x.outcome (m.later steps)) (x.outcome m) := by
  rw [hx m steps]
  exact ⟨rfl, rfl⟩

end Script

end TsxPreview
