import TsxPreview.Script.Property
import TsxPreview.Script.Run

/-!
How computations of scripts end. A computation may fail, and keeps what it changed even then, so
what it leaves is described for both ways in which it ends. The error that ends a run need not be the
one that is placed, and the limit on steps can end a run with an error of its own.
-/

namespace TsxPreview

namespace Script

variable {α β : Type}

theorem get_bind_apply (f : Machine → Script α) (m : Machine) : (get >>= f) m = f m m := rfl

/-- `post` holds of what a computation gives and leaves, `fail` of what it leaves when it fails. -/
def Ends (x : Script α) (m : Machine) (post : α → Machine → Prop) (fail : Machine → Prop) : Prop :=
  match x m with
  | .ok a m' => post a m'
  | .error _ m' => fail m'

variable {m : Machine} {post : α → Machine → Prop} {fail : Machine → Prop}

theorem Ends.ok {x : Script α} {a : α} {m' : Machine} (h : Ends x m post fail)
    (hx : x m = .ok a m') : post a m' := by
  unfold Ends at h
  rwa [hx] at h

theorem Ends.error {x : Script α} {e : ScriptError} {m' : Machine} (h : Ends x m post fail)
    (hx : x m = .error e m') : fail m' := by
  unfold Ends at h
  rwa [hx] at h

theorem Ends.mono {x : Script α} {post' : α → Machine → Prop} {fail' : Machine → Prop}
    (h : Ends x m post fail) (hp : ∀ a m', post a m' → post' a m')
    (hf : ∀ m', fail m' → fail' m') : Ends x m post' fail' := by
  unfold Ends at h ⊢
  cases hx : x m with
  | ok a m' =>
    rw [hx] at h
    exact hp a m' h
  | error e m' =>
    rw [hx] at h
    exact hf m' h

/-- What a computation gives and leaves is what it gives and leaves. -/
theorem Ends.with_eq {x : Script α} (h : Ends x m post fail) :
    Ends x m (fun a m' => x m = .ok a m' ∧ post a m') fail := by
  unfold Ends at h ⊢
  cases hx : x m with
  | ok a m' =>
    rw [hx] at h
    exact ⟨rfl, h⟩
  | error e m' =>
    rw [hx] at h
    exact h

/-- A computation gives a value. -/
def Succeeds (x : Script α) (m : Machine) : Prop := ∃ a m', x m = .ok a m'

theorem Ends.succeeds {x : Script α} (h : Ends x m (fun _ _ => True) fun _ => False) :
    x.Succeeds m := by
  unfold Ends at h
  cases hx : x m with
  | ok a m' => exact ⟨a, m', hx⟩
  | error e m' =>
    rw [hx] at h
    exact h.elim

/-! ## Single computations -/

@[simp] theorem ends_pure (a : α) : Ends (pure a) m post fail ↔ post a m := Iff.rfl

@[simp] theorem ends_bind (x : Script β) (f : β → Script α) :
    Ends (x >>= f) m post fail ↔ Ends x m (fun b m' => Ends (f b) m' post fail) fail := by
  show (match EStateM.bind x f m with
    | .ok a m' => post a m'
    | .error _ m' => fail m') ↔ _
  unfold EStateM.bind Ends
  cases x m <;> exact Iff.rfl

@[simp] theorem ends_typeError (fault : TypeFault) :
    Ends (typeError fault : Script α) m post fail ↔ fail m := Iff.rfl

@[simp] theorem ends_onHeap (f : Heap → α) :
    Ends (onHeap f) m post fail ↔ post (f m.heap) m := Iff.rfl

@[simp] theorem ends_onRealm (f : Realm → α) :
    Ends (onRealm f) m post fail ↔ post (f m.realm) m := Iff.rfl

@[simp] theorem ends_modifyRealm (f : Realm → Realm) {post : Unit → Machine → Prop} :
    Ends (modifyRealm f) m post fail ↔ post () { m with realm := f m.realm } := Iff.rfl

@[simp] theorem ends_modifyHooks (f : HookStore → HookStore) {post : Unit → Machine → Prop} :
    Ends (modifyHooks f) m post fail ↔ post () { m with realm.hooks := f m.realm.hooks } := Iff.rfl

/-- What only extends the heap does not fail. -/
@[simp] theorem ends_alloc (x : Alloc α) :
    Ends (liftM x) m post fail ↔ post (x m.heap).1 { m with heap := (x m.heap).2 } := Iff.rfl

/-- An iteration reads. -/
theorem ends_iterate {v : Value} {post : List Value → Machine → Prop}
    (hp : ∀ items, post items m) (hf : fail m) : Ends (iterate v) m post fail := by
  unfold iterate
  cases v <;> first | exact hp _ | exact hf

/-- An error that is caught leaves what the computation left. -/
theorem ends_attempt {x : Script α} {post : Except ScriptError α → Machine → Prop}
    (h : Ends x m (fun a m' => post (.ok a) m') fun m' => (∀ e, post (.error e) m') ∧ fail m') :
    Ends (attempt x) m post fail := by
  unfold Ends attempt at *
  cases hx : x m with
  | ok a m' =>
    rw [hx] at h
    exact h
  | error e m' =>
    rw [hx] at h
    simp only
    cases e.endsRun with
    | true => exact h.2
    | false => exact h.1 e

end Script

/-! ## Steps of evaluation -/

namespace Machine

/-- The machine after one more step of evaluation. -/
def ticked (m : Machine) : Machine :=
  { m with realm := { m.realm with steps := m.realm.steps + 1 } }

/-- The next step is one too many. -/
def Spent (m : Machine) : Prop :=
  ∃ limit, m.realm.config.stepLimit = some limit ∧ limit < m.realm.steps + 1

variable {m : Machine}

@[simp] theorem ticked_heap : m.ticked.heap = m.heap := rfl

@[simp] theorem ticked_loaders : m.ticked.loaders = m.loaders := rfl

@[simp] theorem ticked_config : m.ticked.realm.config = m.realm.config := rfl

@[simp] theorem ticked_depth : m.ticked.realm.depth = m.realm.depth := rfl

/-- Without a limit no step is one too many. -/
theorem not_spent (free : m.realm.config.stepLimit = none) : ¬m.Spent := by
  rintro ⟨limit, eq, -⟩
  rw [free] at eq
  cases eq

end Machine

namespace Script

variable {α : Type} {m : Machine} {post : α → Machine → Prop} {fail : Machine → Prop}

@[simp] theorem ends_throw (e : ScriptError) :
    Ends (throw e : Script α) m post fail ↔ fail m := Iff.rfl

@[simp] theorem ends_modifyHeap (f : Heap → Heap) {post : Unit → Machine → Prop} :
    Ends (modifyHeap f) m post fail ↔ post () { m with heap := f m.heap } := Iff.rfl

/-- A computation that cannot fail gives a value. -/
theorem Ends.exists_outcome {x : Script α} (h : Ends x m post fun _ => False) :
    ∃ a m', x.outcome m = (.ok a, m') ∧ post a m' := by
  unfold Ends at h
  unfold outcome
  cases hx : x m with
  | ok a m' =>
    rw [hx] at h
    exact ⟨a, m', rfl, h⟩
  | error e m' =>
    rw [hx] at h
    exact h.elim

@[simp] theorem ends_map {β : Type} (f : β → α) (x : Script β) :
    Ends (f <$> x) m post fail ↔ Ends x m (fun b m' => post (f b) m') fail := by
  rw [map_eq_pure_bind, ends_bind]
  rfl

@[simp] theorem ends_tick {post : Unit → Machine → Prop} :
    Ends tick m post fail ↔ (m.Spent → fail m.ticked) ∧ (¬m.Spent → post () m.ticked) := by
  by_cases spent : m.Spent
  · have ⟨limit, eq, beyond⟩ := spent
    have ends : Ends tick m post fail ↔ fail m.ticked := by
      unfold Ends tick
      dsimp only
      rw [eq]
      dsimp only
      rw [if_pos beyond]
      rfl
    exact ends.trans ⟨fun h => ⟨fun _ => h, fun free => absurd spent free⟩, fun h => h.1 spent⟩
  · have ends : Ends tick m post fail ↔ post () m.ticked := by
      unfold Ends tick
      dsimp only
      cases limited : m.realm.config.stepLimit with
      | none => rfl
      | some limit =>
        have within : ¬limit < m.realm.steps + 1 := fun beyond => spent ⟨limit, limited, beyond⟩
        dsimp only
        rw [if_neg within]
        rfl
    exact ends.trans ⟨fun h => ⟨fun beyond => absurd beyond spent, fun _ => h⟩, fun h => h.2 spent⟩

/-- The place of an error is noted, or it was before. -/
theorem ends_located {x : Script α} {span : Span}
    (h : Ends x m post fun m' => fail m' ∧ fail (noteFault span m')) :
    Ends (located span x) m post fail := by
  unfold Ends located at *
  cases hx : x m with
  | ok a m' =>
    rw [hx] at h
    exact h
  | error e m' =>
    rw [hx] at h
    dsimp only at h ⊢
    cases e.endsRun with
    | true => exact h.1
    | false => exact h.2

theorem ends_finallyModify {x : Script α} {f : Machine → Machine}
    (h : Ends x m (fun a m' => post a (f m')) fun m' => fail m' ∧ fail (f m')) :
    Ends (finallyModify f x) m post fail := by
  unfold Ends finallyModify at *
  cases hx : x m with
  | ok a m' =>
    rw [hx] at h
    exact h
  | error e m' =>
    rw [hx] at h
    dsimp only at h ⊢
    cases e.endsRun with
    | true => exact h.1
    | false => exact h.2

end Script

namespace Evaluator

open Script

variable {levels : Nat}

/-- There are levels enough to go down some. -/
theorem standard_eq {n : Nat} (le : n ≤ Evaluator.levels) :
    standard = atLevel (Evaluator.levels - n + n) := by
  rw [Nat.sub_add_cancel le, standard]

theorem eval_succ (e : Expr) (scope : ScopeRef) :
    (atLevel (levels + 1)).eval e scope = (atLevel levels).evalExpr e scope := rfl

theorem exec_succ (s : Stmt) (scope : ScopeRef) :
    (atLevel (levels + 1)).exec s scope = (atLevel levels).execStmt s scope := rfl

theorem call_succ (fn this : Value) (args : List Value) :
    (atLevel (levels + 1)).call fn this args = (atLevel levels).callValue fn this args := rfl

section

variable {m : Machine} {post : Value → Machine → Prop} {fail : Machine → Prop} {scope : ScopeRef}
  {span : Span}

/-- A literal takes one step, and so does a name. -/
theorem ends_eval_number (x : Float) :
    Ends ((atLevel (levels + 1)).eval (.number span x) scope) m post fail ↔
      (m.Spent → fail m.ticked) ∧ (¬m.Spent → post (.number x) m.ticked) := by
  rw [eval_succ]
  unfold evalExpr
  simp

theorem ends_eval_ident {name : String} {v : Value} (found : m.heap.lookup scope name = some v) :
    Ends ((atLevel (levels + 1)).eval (.ident span name) scope) m post fail ↔
      (m.Spent → fail m.ticked) ∧ (¬m.Spent → post v m.ticked) := by
  rw [eval_succ]
  unfold evalExpr lookup
  simp [found]

/-- A host function runs as one more open call. -/
theorem ends_call_native {id : Identity} {fn : HostFunction} {statics : Option ObjectRef}
    {this : Value} {args : List Value} (shallow : m.realm.depth < maxDepth)
    (h : Ends ((atLevel levels).callHost fn this args)
      { m with realm := { m.realm with depth := m.realm.depth + 1 } }
      (fun v m' => post v { m' with realm := { m'.realm with depth := m'.realm.depth - 1 } })
      fun m' => fail m' ∧ fail { m' with realm := { m'.realm with depth := m'.realm.depth - 1 } }) :
    Ends ((atLevel (levels + 1)).call (.native id fn statics) this args) m post fail := by
  rw [call_succ]
  unfold callValue deeper
  simp [Value.isCallable, Nat.not_le.mpr shallow]
  exact ends_finallyModify h

end

end Evaluator

end TsxPreview

namespace TsxPreview.Script

/-! ## The heap and the loaders -/

/-- A condition on the heap and the loaders. -/
abbrev Condition := Heap → Array Loader → Prop

variable {α β : Type} {J F : Condition} {Q : α → Condition} {R : β → Condition}

/-- From `J` a computation comes to what `Q` says of its value, or it fails where `F` holds. -/
def Runs (J : Condition) (x : Script α) (Q : α → Condition) (F : Condition) : Prop :=
  ∀ m : Machine, J m.heap m.loaders →
    Ends x m (fun a m' => Q a m'.heap m'.loaders) fun m' => F m'.heap m'.loaders

@[simp] theorem ends_get {m : Machine} {post : Machine → Machine → Prop}
    {fail : Machine → Prop} : Ends get m post fail ↔ post m m := Iff.rfl

theorem ends_update {m : Machine} {post : Unit → Machine → Prop} {fail : Machine → Prop}
    (id : Nat) (f : Loader → Loader) : Ends (Loader.update id f) m post fail ↔
      post () { m with loaders := m.loaders.modify id f } := Iff.rfl

namespace Runs

theorem pure {a : α} (h : ∀ heap loaders, J heap loaders → Q a heap loaders) :
    Runs J (pure a) Q F :=
  fun _ hm => h _ _ hm

theorem throw (e : ScriptError) (h : ∀ heap loaders, J heap loaders → F heap loaders) :
    Runs J (throw e) Q F :=
  fun _ hm => h _ _ hm

theorem bind {x : Script β} {f : β → Script α} (hx : Runs J x R F)
    (hf : ∀ b, Runs (R b) (f b) Q F) : Runs J (x >>= f) Q F := by
  intro m hm
  rw [ends_bind]
  exact (hx m hm).mono (fun b m' h => hf b m' h) fun _ => id

theorem post {x : Script α} {Q' : α → Condition} (hx : Runs J x Q F)
    (imp : ∀ a heap loaders, Q a heap loaders → Q' a heap loaders) : Runs J x Q' F :=
  fun m hm => (hx m hm).mono (fun a _ h => imp a _ _ h) fun _ => id

/-- A fact about what came before that does not hang on the machine. -/
theorem of_and {p : Prop} {x : Script α} (hx : p → Runs J x Q F) :
    Runs (fun heap loaders => p ∧ J heap loaders) x Q F :=
  fun m hm => hx hm.1 m hm.2

theorem onHeap {f : Heap → α} (h : ∀ heap loaders, J heap loaders → Q (f heap) heap loaders) :
    Runs J (onHeap f) Q F :=
  fun _ hm => h _ _ hm

theorem onRealm (f : Realm → α) : Runs J (onRealm f) (fun _ => J) F := fun _ hm => hm

theorem modifyHeap {f : Heap → Heap} {Q : Condition}
    (h : ∀ heap loaders, J heap loaders → Q (f heap) loaders) :
    Runs J (modifyHeap f) (fun _ => Q) F :=
  fun _ hm => h _ _ hm

theorem alloc {x : Alloc α}
    (h : ∀ heap loaders, J heap loaders → Q (x heap).1 (x heap).2 loaders) :
    Runs J (liftM x) Q F :=
  fun _ hm => h _ _ hm

theorem tick (fails : ∀ heap loaders, J heap loaders → F heap loaders) :
    Runs J tick (fun _ => J) F :=
  fun _ hm => ends_tick.mpr ⟨fun _ => fails _ _ hm, fun _ => hm⟩

theorem located {x : Script α} (span : Span) (hx : Runs J x Q F) : Runs J (located span x) Q F :=
  fun m hm => ends_located ((hx m hm).mono (fun _ _ => id) fun m' h => by
    refine ⟨h, ?_⟩
    unfold noteFault
    split <;> exact h)

section

variable {scope : ScopeRef} {span : Span} (fails : ∀ heap loaders, J heap loaders → F heap loaders)

include fails

/-- At no level nothing is evaluated. -/
theorem eval {e : Expr} {Q : Value → Condition} (levels : Nat)
    (h : ∀ below, Runs J ((Evaluator.atLevel below).evalExpr e scope) Q F) :
    Runs J ((Evaluator.atLevel levels).eval e scope) Q F := by
  cases levels with
  | zero => exact .throw _ fails
  | succ below => exact h below

theorem exec {s : Stmt} {Q : Completion → Condition} (levels : Nat)
    (h : ∀ below, Runs J ((Evaluator.atLevel below).execKind s scope) Q F) :
    Runs J ((Evaluator.atLevel levels).exec s scope) Q F := by
  cases levels with
  | zero => exact .throw _ fails
  | succ below => exact .bind (.tick fails) fun _ => .located s.span (h below)

theorem ident {name : String} {P : Value → Prop} (levels : Nat)
    (found : ∀ heap loaders, J heap loaders → ∃ v, heap.lookup scope name = some v ∧ P v) :
    Runs J ((Evaluator.atLevel levels).eval (.ident span name) scope)
      (fun v heap loaders => P v ∧ J heap loaders) F := by
  cases levels with
  | zero => exact .throw _ fails
  | succ below =>
    intro m hm
    obtain ⟨v, lookup, hv⟩ := found _ _ hm
    rw [Evaluator.ends_eval_ident lookup]
    exact ⟨fun _ => fails _ _ hm, fun _ => ⟨hv, hm⟩⟩

theorem string (text : String) (levels : Nat) :
    Runs J ((Evaluator.atLevel levels).eval (.string span text) scope)
      (fun v heap loaders => v = .string text ∧ J heap loaders) F := by
  refine eval fails levels fun below => ?_
  unfold Evaluator.evalExpr
  exact .bind (.tick fails) fun _ => .pure fun _ _ hm => ⟨rfl, hm⟩

theorem bool (b : Bool) (levels : Nat) :
    Runs J ((Evaluator.atLevel levels).eval (.bool span b) scope)
      (fun v heap loaders => v = .bool b ∧ J heap loaders) F := by
  refine eval fails levels fun below => ?_
  unfold Evaluator.evalExpr
  exact .bind (.tick fails) fun _ => .pure fun _ _ hm => ⟨rfl, hm⟩

/-- A call of a host function, unless too many calls are open. -/
theorem callNative {id : Identity} {fn : HostFunction} {statics : Option ObjectRef} {this : Value}
    {args : List Value} {Q : Value → Condition} (levels : Nat)
    (host : ∀ below, Runs J ((Evaluator.atLevel below).callHost fn this args) Q F) :
    Runs J ((Evaluator.atLevel levels).call (.native id fn statics) this args) Q F := by
  cases levels with
  | zero => exact .throw _ fails
  | succ below =>
    have opened :
        Runs J (Evaluator.deeper ((Evaluator.atLevel below).callHost fn this args)) Q F := by
      intro m hm
      unfold Evaluator.deeper
      rw [ends_bind, ends_modifyRealm]
      exact ends_finallyModify ((host below
        { m with realm := { m.realm with depth := m.realm.depth + 1 } } hm).mono
        (fun _ _ h => h) fun _ h => ⟨h, h⟩)
    rw [Evaluator.call_succ]
    unfold Evaluator.callValue
    dsimp only [Value.isCallable]
    refine .bind (.onRealm _) fun depth => ?_
    split
    · exact .bind (.throw (Q := fun _ => J) _ fails) fun _ => opened
    · exact opened

end

end Runs

end TsxPreview.Script

namespace TsxPreview

/-! ## Lone modules -/

/-- How a module that requires no other ends on a fresh machine; `none` if it cannot be read. -/
def runLone? (config : RuntimeConfig) (text : String) : Option (Except ScriptError Unit × Machine) :=
  match Executable.ofLoneText "/App.tsx" text with
  | .error _ => none
  | .ok x =>
    let (scope, m) := (Machine.ofConfig config).alloc fun h =>
      h.newScope (some (Machine.ofConfig config).realm.globals)
    some ((Script.runModule x.path x.body.body scope).outcome m)

namespace ScriptError

/-- The error of an outcome. -/
def ofOutcome? {α : Type} : Except ScriptError α → Option ScriptError
  | .ok _ => none
  | .error e => some e

theorem ofOutcome?_eq_some {α : Type} {r : Except ScriptError α} {e : ScriptError} :
    ofOutcome? r = some e ↔ r = .error e := by
  cases r <;> simp [ofOutcome?]

def isContradiction : ScriptError → Bool
  | contradiction => true
  | _ => false

theorem eq_of_isContradiction {e : ScriptError} (h : e.isContradiction) : e = contradiction := by
  cases e <;> first | rfl | cases h

end ScriptError

/-- Past the limit the comparison gives an error, and from then on all values compare as equal. The
sort sees that these answers contradict the ones before, and that ends the run. -/
theorem not_stepLimit_sort :
    ∃ m, runLone? { stepLimit := some 150 }
        "const rows = [0, 1, 0, 0, 0, 0, 0, 0, 0, 0, 0, 0, 0, 0, 0, 0, 0, 0, 0, 0, 0]
          .sort((x, y) => x - y);" = some (.error .contradiction, m) ∧ 150 < m.realm.steps := by
  have checked : (runLone? { stepLimit := some 150 }
      "const rows = [0, 1, 0, 0, 0, 0, 0, 0, 0, 0, 0, 0, 0, 0, 0, 0, 0, 0, 0, 0, 0]
          .sort((x, y) => x - y);").any (fun r =>
        (ScriptError.ofOutcome? r.1).any ScriptError.isContradiction ∧ 150 < r.2.realm.steps) =
      true := by
    decide +kernel
  obtain ⟨⟨r, m⟩, eq, found⟩ := (Option.any_eq_true _ _).1 checked
  obtain ⟨failed, steps⟩ := of_decide_eq_true found
  obtain ⟨e, eq', contradicts⟩ := (Option.any_eq_true _ _).1 failed
  obtain rfl := ScriptError.ofOutcome?_eq_some.mp eq'
  obtain rfl := ScriptError.eq_of_isContradiction contradicts
  exact ⟨m, eq, steps⟩

/-- The value that a script threw. -/
def ScriptError.thrown? : ScriptError → Option Value
  | thrown v => some v
  | _ => none

theorem ScriptError.thrown?_eq_some {e : ScriptError} {v : Value} :
    e.thrown? = some v ↔ e = thrown v := by
  cases e <;> simp [thrown?]

/-- A finalizer that returns discards the error that is under way, but not its place. The error that
ends the run arises in the last line and is placed in the second. -/
theorem not_placed_discarded :
    let text := "function f() \x7b\n" ++
      "  try \x7b throw new Error(\"a\"); \x7d finally \x7b return 1; \x7d\n" ++
      "\x7d\n" ++
      "f();\n" ++
      "throw new Error(\"b\");"
    ∃ v m, runLone? {} text = some (.error (.thrown v), m) ∧ v.describeThrown m.heap = "Error: b" ∧
      m.realm.fault = some ⟨some "/App.tsx", ⟨23, 44, 2, 9⟩⟩ := by
  intro text
  have checked : (runLone? {} text).any (fun r =>
      ((ScriptError.ofOutcome? r.1).bind ScriptError.thrown?).any fun v =>
        v.describeThrown r.2.heap = "Error: b" ∧
          r.2.realm.fault = some ⟨some "/App.tsx", ⟨23, 44, 2, 9⟩⟩) = true := by
    decide +kernel
  obtain ⟨⟨r, m⟩, eq, failed⟩ := (Option.any_eq_true _ _).1 checked
  obtain ⟨v, thrown, found⟩ := (Option.any_eq_true _ _).1 failed
  obtain ⟨e, eq', isThrown⟩ := Option.bind_eq_some_iff.mp thrown
  obtain rfl := ScriptError.ofOutcome?_eq_some.mp eq'
  obtain rfl := ScriptError.thrown?_eq_some.mp isThrown
  obtain ⟨message, place⟩ := of_decide_eq_true found
  exact ⟨v, m, eq, message, place⟩

end TsxPreview
