import TsxPreview.Proofs.Script.Paths

/-!
Targets that are read before they are assigned: counters and compound assignments. The member that
is read is found by one evaluation of its object and its key, and the member that is written by
another. So it makes no difference that there are two only where the second leads to where the first
has led.
-/

namespace TsxPreview

open Script

namespace Evaluator

/-! ## Reading and storing -/

/-- How a target is changed. -/
inductive Modification where
  | update (op : UpdateOp) (before : Bool)
  | arithmetic (op : BinaryOp) (operand : Expr)
  | logical (op : LogicalOp) (operand : Expr)

namespace Modification

/-- The expression that changes a target. -/
def expr (span : Span) (target : Expr) : Modification → Expr
  | update op before => .update span op before target
  | arithmetic op operand => .assign span (.arithmetic op) target operand
  | logical op operand => .assign span (.logical op) target operand

/-- What comes of the value that is read: the value to store, if one is stored, and the value of the
whole expression. -/
def next (ev : Evaluator) (scope : ScopeRef) (current : Value) :
    Modification → Script (Option Value × Value)
  | update op before => do
    let old ← numberOf current
    let new := match op with
      | .increment => old + 1
      | .decrement => old - 1
    return (some (.number new), .number (if before then new else old))
  | arithmetic op operand => do
    let other ← ev.eval operand scope
    let v ← binary op current other
    return (some v, v)
  | logical op operand => do
    if op.decides current then return (none, current)
    let v ← ev.eval operand scope
    return (some v, v)

end Modification

/-- Stores a value, if there is one. -/
def storing (store : Value → Script Unit) : Option Value → Script Unit
  | some v => store v
  | none => pure ()

variable {ev : Evaluator} {scope : ScopeRef} {span at' : Span} {base target : Expr} {key : Key}

theorem evalExpr_modification (ev : Evaluator) (scope : ScopeRef) (c : Modification) :
    ev.evalExpr (c.expr span target) scope = (do
      tick
      let current ← ev.eval target scope
      let (stored, result) ← c.next ev scope current
      storing (ev.assign scope target) stored
      return result) := by
  cases c with
  | update op before =>
    cases op <;> simp [Modification.expr, Modification.next, storing, evalExpr, evalUpdate]
  | arithmetic op operand =>
    simp [Modification.expr, Modification.next, storing, evalExpr, evalAssign]
  | logical op operand =>
    simp only [Modification.expr, Modification.next, evalExpr, evalAssign]
    refine congrArg _ (funext fun _ => congrArg _ (funext fun current => ?_))
    by_cases decided : op.decides current = true
    · simp [decided, storing]
    · simp [decided, storing]

/-- The object and the key of a target as they are evaluated to read it; none where an optional link
before the last cuts the chain short. The last link of a target is never optional. -/
def placeOf (ev : Evaluator) (scope : ScopeRef) (base : Expr) (key : Key) :
    Script (Option (Value × String)) := do
  match ← ev.evalChain scope base with
  | none => pure none
  | some o => return some (o, ← ev.keyName scope key)

/-- Reads a place. -/
def readPlace : Option (Value × String) → Script Value
  | some (o, k) => getProperty o k
  | none => pure .undefined

/-- Stores at a place that was read. Where there was none, the object is `undefined`. -/
def storePlace (ev : Evaluator) (scope : ScopeRef) (key : Key) (v : Value) :
    Option (Value × String) → Script Unit
  | some (o, k) => setProperty o k v
  | none => do setProperty .undefined (← ev.keyName scope key) v

/-- Stores where another evaluation of the target leads. -/
def storeAgain (ev : Evaluator) (scope : ScopeRef) (base : Expr) (key : Key) (v : Value) :
    Script Unit := do
  let o ← ev.eval base scope
  let k ← ev.keyName scope key
  setProperty o k v

theorem assign_member (ev : Evaluator) (scope : ScopeRef) (base : Expr) (key : Key) :
    ev.assign scope (.member at' base key false) = ev.storeAgain scope base key := by
  funext v
  unfold assign assignTo storeAgain
  rfl

theorem evalExpr_member (ev : Evaluator) : ev.evalExpr (.member at' base key false) scope = (do
    tick
    readPlace (← ev.placeOf scope base key)) := by
  simp only [evalExpr, evalChain, placeOf, bind_assoc]
  refine congrArg _ (funext fun _ => congrArg _ (funext fun o => ?_))
  cases o with
  | none => simp [readPlace]
  | some o => simp [memberOf, readPlace]

section

variable (levels : Nat) (scope : ScopeRef) (c : Modification) (base : Expr) (key : Key)

/-- A change up to where it stores: the place that was read, the value to store, if one is stored,
and the value of the whole expression. The expression and its target take a step each. -/
def reading : Script (Option (Value × String) × Option Value × Value) := do
  tick
  tick
  let place ← (atLevel levels).placeOf scope base key
  let current ← readPlace place
  let (stored, result) ← c.next (atLevel (levels + 1)) scope current
  return (place, stored, result)

/-- A change that evaluates its target once, and stores where it has read. -/
def modifyOnce : Script Value := do
  let (place, stored, result) ← reading levels scope c base key
  storing (fun v => (atLevel (levels + 1)).storePlace scope key v place) stored
  return result

theorem eval_modification (span at' : Span) :
    (atLevel (levels + 2)).eval (c.expr span (.member at' base key false)) scope = (do
      let (_, stored, result) ← reading levels scope c base key
      storing ((atLevel (levels + 1)).storeAgain scope base key) stored
      return result) := by
  rw [eval_succ, evalExpr_modification, assign_member, eval_succ, evalExpr_member]
  simp [reading]

end

end Evaluator

namespace Script

variable {α β : Type}

/-- After the same beginning it depends on what is stored. -/
theorem alike_storing_iff {x : Script (α × Option Value × β)} {f g : α → Value → Script Unit}
    {m : Machine} :
    Alike (outcome (do
        let (a, stored, result) ← x
        Evaluator.storing (f a) stored
        return result) m)
      (outcome (do
        let (a, stored, result) ← x
        Evaluator.storing (g a) stored
        return result) m) ↔
      ∀ a v result m', x.outcome m = (.ok (a, some v, result), m') →
        Alike ((f a v).outcome m') ((g a v).outcome m') := by
  rw [outcome_bind, outcome_bind]
  rcases x.outcome m with ⟨e | ⟨a, stored, result⟩, m'⟩
  · simp [Alike.refl]
  · dsimp only
    cases stored with
    | none => simp [Evaluator.storing, Alike.refl]
    | some v =>
      rw [Evaluator.storing, Evaluator.storing, alike_then_iff]
      constructor
      · rintro same _ _ _ _ ⟨⟩
        exact same
      · exact fun same => same a v result m' rfl

end Script

namespace Evaluator

/-! ## Targets that are evaluated once -/

section

variable (levels : Nat) (scope : ScopeRef) (c : Modification) (base : Expr) (key : Key)
  (m : Machine)

/-- A change of a member ends as one that evaluates its target once, but for steps. -/
def ModifiesOnce : Prop :=
  ∀ span at', Alike
    (((atLevel (levels + 2)).eval (c.expr span (.member at' base key false)) scope).outcome m)
    ((modifyOnce levels scope c base key).outcome m)

/-- Storing where the second evaluation leads comes to storing where the first has led. -/
def StoresWhereRead : Prop :=
  ∀ place v result m',
    (reading levels scope c base key).outcome m = (.ok (place, some v, result), m') →
      Alike (((atLevel (levels + 1)).storeAgain scope base key v).outcome m')
        (((atLevel (levels + 1)).storePlace scope key v place).outcome m')

theorem modifiesOnce_iff :
    ModifiesOnce levels scope c base key m ↔ StoresWhereRead levels scope c base key m := by
  have stored := alike_storing_iff (x := reading levels scope c base key) (m := m)
    (f := fun _ => (atLevel (levels + 1)).storeAgain scope base key)
    (g := fun place v => (atLevel (levels + 1)).storePlace scope key v place)
  constructor
  · intro once
    have ended := once default default
    rw [eval_modification] at ended
    exact stored.1 ended
  · intro stores span at'
    rw [eval_modification]
    exact stored.2 stores

end

/-! ## Targets that stand still -/

open Machine (Unchanged)

variable {scope : ScopeRef} {m m' : Machine} {o v : Value} {k : String} {base : Expr} {key : Key}
  {c : Modification} (levels : Nat)

/-- A member stands at an object and a key: a path leads there, and steps are not limited. -/
structure StandsAt (scope : ScopeRef) (base : Expr) (key : Key) (o : Value) (k : String)
    (m : Machine) : Prop where
  unlimited : m.realm.config.stepLimit = none
  object : base.path? m.heap scope = some o
  key : key.atom? m.heap scope = some k

theorem StandsAt.unchanged (stands : StandsAt scope base key o k m) (same : m.Unchanged m') :
    StandsAt scope base key o k m' where
  unlimited := same.stepLimit.trans stands.unlimited
  object := (same.path? scope base).trans stands.object
  key := (same.key? scope key).trans stands.key

theorem finds_placeOf (stands : StandsAt scope base key o k m) :
    Finds ((atLevel (levels + 1)).placeOf scope base key) (some (o, k)) m := by
  refine (finds_evalChain levels stands.unlimited stands.object).bind fun i => ?_
  have named := finds_keyName levels (m := m.later i) stands.unlimited stands.key
  exact named.bind fun _ => finds_pure _ _

/-- A change whose operand, if there is one, is a path too. -/
def Modification.Plain (scope : ScopeRef) (m : Machine) : Modification → Prop
  | update _ _ => True
  | arithmetic _ operand | logical _ operand => ∃ v, operand.path? m.heap scope = some v

theorem Modification.Plain.unchanged (plain : c.Plain scope m) (same : m.Unchanged m') :
    c.Plain scope m' := by
  cases c with
  | update => trivial
  | arithmetic _ operand | logical _ operand =>
    obtain ⟨v, known⟩ := plain
    exact ⟨v, (same.path? scope operand).trans known⟩

theorem Modification.Plain.ends_next (plain : c.Plain scope m)
    (unlimited : m.realm.config.stepLimit = none) (current : Value) :
    Ends (c.next (atLevel (levels + 2)) scope current) m (fun _ => m.Unchanged)
      fun _ => True := by
  cases c with
  | update => exact Unchanged.refl m
  | arithmetic op operand =>
    obtain ⟨v, known⟩ := plain
    refine (finds_eval_path levels unlimited known).ends_bind fun steps => ?_
    have computed := within_iff_ends.1 (unchanged_binary op current v) (m.later steps)
    rw [ends_bind]
    exact computed.mono (fun _ _ same => (m.unchanged_later steps).trans same) fun _ _ => trivial
  | logical op operand =>
    obtain ⟨v, known⟩ := plain
    unfold Modification.next
    dsimp only
    split
    · exact Unchanged.refl m
    · exact (finds_eval_path levels unlimited known).ends_bind fun steps => m.unchanged_later steps

theorem alike_storeAgain (stands : StandsAt scope base key o k m) (v : Value) :
    Alike (((atLevel (levels + 2)).storeAgain scope base key v).outcome m)
      ((setProperty o k v).outcome m) := by
  have found := finds_eval_path levels stands.unlimited stands.object
  obtain ⟨i, first⟩ := found.outcome_bind (f := fun o =>
    (atLevel (levels + 2)).keyName scope key >>= fun k => setProperty o k v)
  have named := finds_keyName (levels + 1) (m := m.later i) stands.unlimited stands.key
  obtain ⟨j, second⟩ := named.outcome_bind (f := fun k => setProperty o k v)
  rw [storeAgain, first, second, Machine.later_later]
  exact (timeless_setProperty o k v).alike m (i + j)

/-- What is read first is the place where the member stands. -/
theorem ends_reading {post : Option (Value × String) × Option Value × Value → Machine → Prop}
    (stands : StandsAt scope base key o k m)
    (h : ∀ steps, Ends (do
      let current ← getProperty o k
      let (stored, result) ← c.next (atLevel (levels + 2)) scope current
      return (some (o, k), stored, result)) (m.later steps) post fun _ => True) :
    Ends (reading (levels + 1) scope c base key) m post fun _ => True := by
  unfold reading
  refine (finds_tick stands.unlimited).ends_bind fun i => ?_
  refine (finds_tick (m := m.later i) stands.unlimited).ends_bind fun j => ?_
  have found := finds_placeOf levels (m := (m.later i).later j)
    ⟨stands.unlimited, stands.object, stands.key⟩
  refine found.ends_bind fun n => ?_
  rw [Machine.later_later, Machine.later_later]
  exact h (i + (j + n))

theorem place_of_reading (stands : StandsAt scope base key o k m)
    {place : Option (Value × String)} {stored : Option Value} {result : Value}
    (h : (reading (levels + 1) scope c base key).outcome m =
      (.ok (place, stored, result), m')) : place = some (o, k) := by
  have ends : Ends (reading (levels + 1) scope c base key) m
      (fun r _ => r.1 = some (o, k)) fun _ => True := by
    refine ends_reading levels stands fun steps => ?_
    simp only [ends_bind, ends_pure]
    exact ends_of_forall (fun _ _ => ends_of_forall (fun _ _ => trivial) fun _ => trivial)
      fun _ => trivial
  exact ends.of_outcome h

/-- A plain change has changed nothing when it comes to store. -/
theorem Modification.Plain.ends_reading (plain : c.Plain scope m)
    (stands : StandsAt scope base key o k m) :
    Ends (reading (levels + 1) scope c base key) m (fun _ => m.Unchanged) fun _ => True := by
  refine Evaluator.ends_reading levels stands fun steps => ?_
  have start : m.Unchanged (m.later steps) := m.unchanged_later steps
  have read := within_iff_ends.1 (unchanged_getProperty o k) (m.later steps)
  rw [ends_bind]
  refine read.mono (fun current m' same => ?_) fun _ _ => trivial
  have same : m.Unchanged m' := start.trans same
  rw [ends_bind]
  have next := (plain.unchanged same).ends_next levels (stands.unchanged same).unlimited current
  exact next.mono (fun _ _ more => same.trans more) fun _ => id

/-- A member that still stands where it stood is stored where it was read. -/
theorem StandsAt.storesWhereRead (stands : StandsAt scope base key o k m)
    (still : Ends (reading (levels + 1) scope c base key) m (fun _ => StandsAt scope base key o k)
      fun _ => True) : StoresWhereRead (levels + 1) scope c base key m := by
  intro place v result m' read
  rw [place_of_reading levels stands read]
  exact alike_storeAgain levels (still.of_outcome read) v

/-- A change of a member is as if its target were evaluated once exactly if the second evaluation
leads to where the first has led. It does at every member that stands at a place and stays there
while the operand is evaluated; counters and operands that are paths leave all members in place. -/
theorem modifiesOnce (levels : Nat) (scope : ScopeRef) (c : Modification) (base : Expr) (key : Key)
    (m : Machine) :
    (ModifiesOnce levels scope c base key m ↔ StoresWhereRead levels scope c base key m) ∧
    ∀ o k, StandsAt scope base key o k m →
      (c.Plain scope m ∨ Ends (reading (levels + 1) scope c base key) m
        (fun _ => StandsAt scope base key o k) fun _ => True) →
      ModifiesOnce (levels + 1) scope c base key m := by
  refine ⟨modifiesOnce_iff levels scope c base key m, fun o k stands still => ?_⟩
  refine (modifiesOnce_iff _ scope c base key m).2 ?_
  rcases still with plain | still
  · refine stands.storesWhereRead levels ((plain.ends_reading levels stands).mono ?_ fun _ => id)
    exact fun _ _ same => stands.unchanged same
  · exact stands.storesWhereRead levels still

/-- A text grows where it stands. -/
theorem modifiesOnce_grow :
    ∃ m : Machine, StandsAt ⟨0⟩ (.ident default "o") (.named "k") (.object ⟨0⟩) "k" m ∧
      ModifiesOnce 1 ⟨0⟩ (.arithmetic .add (.string default "b")) (.ident default "o")
        (.named "k") m := by
  let members : Record Value := ⟨[("k", .string "a")]⟩
  let scope : Scope := ⟨⟨[("o", ⟨.object ⟨0⟩, false⟩)]⟩, none⟩
  let m : Machine := ⟨⟨#[], #[members], #[scope], 0⟩, default, #[]⟩
  have stands : StandsAt ⟨0⟩ (.ident default "o") (.named "k") (.object ⟨0⟩) "k" m :=
    ⟨rfl, rfl, rfl⟩
  have plain : (Modification.arithmetic .add (.string default "b")).Plain ⟨0⟩ m :=
    ⟨.string "b", rfl⟩
  exact ⟨m, stands, (modifiesOnce 0 _ _ _ _ m).2 _ _ stands (.inl plain)⟩

/-- A counter in the key counts twice, so one item is read and another is written. -/
theorem not_modifiesOnce_counter :
    ∃ m, runLone? {} "let i = 0; const a = [1, 5]; a[i++] += 10;" = some (.ok (), m) ∧
      ∃ scope, (m.heap.lookup scope "i").map (·.text m.heap) = some "2" ∧
        (m.heap.lookup scope "a").map (·.text m.heap) = some "1,11" := by
  have checked : (runLone? {} "let i = 0; const a = [1, 5]; a[i++] += 10;").any (fun r =>
      r.1.isOk ∧ (List.range r.2.heap.scopes.size).any fun s =>
        (r.2.heap.lookup ⟨s⟩ "i").map (·.text r.2.heap) = some "2" ∧
          (r.2.heap.lookup ⟨s⟩ "a").map (·.text r.2.heap) = some "1,11") = true := by
    decide +kernel
  obtain ⟨⟨r, m⟩, eq, found⟩ := (Option.any_eq_true _ _).1 checked
  obtain ⟨ended, found⟩ := of_decide_eq_true found
  obtain ⟨s, -, found⟩ := List.any_eq_true.1 found
  cases r with
  | error e => cases ended
  | ok a => exact ⟨m, eq, ⟨s⟩, of_decide_eq_true found⟩

end Evaluator

end TsxPreview
