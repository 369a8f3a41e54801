import TsxPreview.Proofs.Hooks.Updates
import TsxPreview.Proofs.Linking.Functions
import TsxPreview.Proofs.Script.Running
import TsxPreview.Script.Host

/-!
How the evaluation of a linked module opens: functions are declared, packages are asked for, and the
exports of functions are assigned. Until then nothing of the project is asked for.
-/

namespace TsxPreview

/-! ## Scopes -/

namespace Heap

variable {h : Heap} {r : ScopeRef} {name : String} {v : Value}

/-- The value of a name that a scope itself declares. -/
def own (h : Heap) (r : ScopeRef) (name : String) : Option Value :=
  ((h.scope r).bindings.get? name).map Variable.value

theorem lookup_of_own (found : h.own r name = some v) : h.lookup r name = some v := by
  obtain ⟨x, hx, rfl⟩ := Option.map_eq_some_iff.mp found
  unfold lookup find? findFrom
  dsimp only
  rw [hx]
  rfl

theorem own_define (lt : r.index < h.scopes.size) (value : Value) (isMutable : Bool)
    (other : String) : (h.define r name value isMutable).own r other =
      if other = name then some value else h.own r other := by
  have scope : (h.define r name value isMutable).scope r =
      { h.scope r with bindings := (h.scope r).bindings.insert name ⟨value, isMutable⟩ } := by
    simp [Heap.scope, define, lt, Array.getElem_modify]
  unfold own
  rw [scope]
  dsimp only
  split
  · rename_i same
    rw [same, Record.get?_insert_self]
    rfl
  · rename_i different
    rw [Record.get?_insert_of_ne _ _ different]

end Heap

/-! ## Openings -/

/-- A module that is being opened: its loader as it was, its scope and its exports. -/
structure Opening where
  loader : Loader
  number : Nat
  scope : ScopeRef
  exports : ObjectRef

namespace Opening

/-- The loader has noted answers and nothing else: no module began. -/
def Unmoved (o : Opening) (loaders : Array Loader) : Prop :=
  ∃ history, loaders[o.number]? = some { o.loader with history }

/-- The function that asks this loader for modules. -/
def IsRequire (o : Opening) (v : Value) : Prop :=
  ∃ id statics, v = .native id (.require o.number) statics

/-- Under `names` functions are declared, and under `keys` functions are exported. -/
structure Holds (o : Opening) (names keys : List String) (h : Heap) (loaders : Array Loader) :
    Prop where
  scopes : o.scope.index < h.scopes.size
  objects : o.exports.index < h.objects.size
  require : ∃ v, h.own o.scope Linking.requireName = some v ∧ o.IsRequire v
  container : h.own o.scope Linking.exportsName = some (.object o.exports)
  declared : ∀ name ∈ names, ∃ v, h.own o.scope name = some v ∧ v.isCallable = true
  exported : ∀ key ∈ keys, ∃ v, (h.members o.exports).get? key = some v ∧ v.isCallable = true
  unmoved : o.Unmoved loaders

variable {o : Opening} {names keys : List String} {h : Heap} {loaders : Array Loader}

namespace Holds

/-- A name is declared that generated code does not rely on. -/
theorem define (opened : o.Holds names keys h loaders) {name : String}
    (free : ¬Linking.IsReserved name) {value : Value} {names' : List String}
    (still : ∀ n ∈ names', n = name ∧ value.isCallable = true ∨ n ≠ name ∧ n ∈ names)
    (isMutable : Bool) : o.Holds names' keys (h.define o.scope name value isMutable) loaders where
  scopes := by
    rw [Heap.define, Array.size_modify]
    exact opened.scopes
  objects := opened.objects
  require := by
    rw [Heap.own_define opened.scopes, if_neg fun same => free (.inl same.symm)]
    exact opened.require
  container := by
    rw [Heap.own_define opened.scopes, if_neg fun same => free (.inr same.symm)]
    exact opened.container
  declared n mem := by
    rw [Heap.own_define opened.scopes]
    obtain ⟨same, callable⟩ | ⟨other, known⟩ := still n mem
    · rw [if_pos same]
      exact ⟨value, rfl, callable⟩
    · rw [if_neg other]
      exact opened.declared n known
  exported := opened.exported
  unmoved := opened.unmoved

theorem defineOther (opened : o.Holds names keys h loaders) {name : String}
    (free : ¬Linking.IsReserved name ∧ name ∉ names) (value : Value) (isMutable : Bool) :
    o.Holds names keys (h.define o.scope name value isMutable) loaders :=
  opened.define free.1 (fun _ mem => .inr ⟨fun same => free.2 (same ▸ mem), mem⟩) isMutable

theorem defineFunction (opened : o.Holds names keys h loaders) {name : String}
    (free : ¬Linking.IsReserved name) {value : Value} (callable : value.isCallable = true)
    (isMutable : Bool) :
    o.Holds (name :: names) keys (h.define o.scope name value isMutable) loaders := by
  refine opened.define free (fun n mem => ?_) isMutable
  by_cases same : n = name
  · exact .inl ⟨same, callable⟩
  · exact .inr ⟨same, (List.mem_cons.mp mem).resolve_left same⟩

theorem subset (opened : o.Holds names keys h loaders) {names' keys' : List String}
    (fewer : names' ⊆ names) (less : keys' ⊆ keys) : o.Holds names' keys' h loaders :=
  { opened with
    declared := fun name mem => opened.declared name (fewer mem)
    exported := fun key mem => opened.exported key (less mem) }

/-- Identities do not matter. -/
theorem newId (opened : o.Holds names keys h loaders) : o.Holds names keys h.newId.2 loaders :=
  { opened with }

/-- A function is exported. -/
theorem assign (opened : o.Holds names keys h loaders) (key : String) {value : Value}
    (callable : value.isCallable = true) :
    o.Holds names (key :: keys) (h.modifyMembers o.exports (·.insert key value)) loaders where
  scopes := opened.scopes
  objects := by
    rw [Heap.modifyMembers, Array.size_modify]
    exact opened.objects
  require := opened.require
  container := opened.container
  declared := opened.declared
  exported other mem := by
    have members : (h.modifyMembers o.exports (·.insert key value)).members o.exports =
        (h.members o.exports).insert key value := by
      simp [Heap.members, Heap.modifyMembers, opened.objects, Array.getElem_modify]
    rw [members]
    by_cases same : other = key
    · rw [same, Record.get?_insert_self]
      exact ⟨value, rfl, callable⟩
    · rw [Record.get?_insert_of_ne _ _ same]
      exact opened.exported other ((List.mem_cons.mp mem).resolve_left same)
  unmoved := opened.unmoved

/-- An answer is noted. -/
theorem note (opened : o.Holds names keys h loaders) (e : LoaderEvent) :
    o.Holds names keys h (loaders.modify o.number (·.note e)) :=
  { opened with
    unmoved := by
      obtain ⟨history, there⟩ := opened.unmoved
      refine ⟨e :: history, ?_⟩
      rw [Array.getElem?_modify, if_pos rfl, there]
      rfl }

end Holds

/-- Where an opening goes on, no module began. -/
theorem fails (h : Heap) (loaders : Array Loader) (opened : o.Holds names keys h loaders) :
    o.Unmoved loaders :=
  opened.unmoved

/-- A computation changes nothing of an opening. When it fails, no module began. -/
def Keeps (o : Opening) {α : Type} (names keys : List String) (x : Script α) : Prop :=
  x.Runs (o.Holds names keys) (fun _ => o.Holds names keys) fun _ => o.Unmoved

open Script

/-! ## Requests -/

section

variable {ev : Evaluator} {levels : Nat} {target : String}
  (covered : (PackageTable.container? o.loader.packages target).isSome = true)

include covered

/-- A package answers a request; the answer is noted. -/
theorem keeps_requireCall (more : List Value) :
    o.Keeps names keys (ev.requireCall o.number (.string target :: more)) := by
  obtain ⟨container, found⟩ := Option.isSome_iff_exists.mp covered
  intro m opened
  obtain ⟨history, there⟩ := opened.unmoved
  have chosen (all : Bool) :
      Ends (do Evaluator.chosenExports all (← ev.exportsOf o.number target)) m
        (fun _ m' => m' = m) fun _ => False := by
    unfold Evaluator.exportsOf
    simp only [ends_bind, ends_get, there, found, ends_pure]
    unfold Evaluator.chosenExports
    split
    · rfl
    · rw [ends_bind, ends_onHeap]
      split <;> rfl
  have required (all : Bool) : Ends (ev.require o.number target all) m
      (fun _ m' => o.Holds names keys m'.heap m'.loaders) fun m' => o.Unmoved m'.loaders := by
    unfold Evaluator.require
    rw [ends_bind]
    refine ends_attempt ((chosen all).mono (fun v m' same => ?_) fun _ => False.elim)
    rw [same, ends_bind, ends_update, ends_pure]
    exact opened.note _
  unfold Evaluator.requireCall
  rw [ends_bind, ends_get]
  dsimp only
  split
  · exact ⟨history, there⟩
  · exact required _

/-- The call that is generated for a package. -/
theorem keeps_eval_require (all : Bool) (span : Span) :
    o.Keeps names keys
      ((Evaluator.atLevel levels).eval (Linking.requireCall target all span) o.scope) := by
  refine .eval fails levels fun below => ?_
  have callee : Runs (o.Holds names keys)
      ((Evaluator.atLevel below).eval (.ident span Linking.requireName) o.scope)
      (fun v h loaders => o.IsRequire v ∧ o.Holds names keys h loaders) fun _ => o.Unmoved := by
    refine .ident fails below fun h loaders opened => ?_
    obtain ⟨v, own, isRequire⟩ := opened.require
    exact ⟨v, Heap.lookup_of_own own, isRequire⟩
  have reached : Runs (o.Holds names keys)
      (do return some (← (Evaluator.atLevel below).eval (.ident span Linking.requireName) o.scope))
      (fun v? h loaders => (∃ v, v? = some v ∧ o.IsRequire v) ∧ o.Holds names keys h loaders)
      fun _ => o.Unmoved :=
    .bind callee fun v => .of_and fun isRequire => .pure fun _ _ opened =>
      ⟨⟨v, rfl, isRequire⟩, opened⟩
  have args : Runs (o.Holds names keys)
      ((Evaluator.atLevel below).evalItems o.scope (.expr (.string span target) ::
        if all then [.expr (.bool span true)] else []) #[])
      (fun out h loaders => (∃ more, out.toList = .string target :: more) ∧
        o.Holds names keys h loaders) fun _ => o.Unmoved := by
    unfold Evaluator.evalItems
    refine .bind (.string fails target below) fun v => .of_and fun text => ?_
    subst text
    cases all with
    | false => exact .pure fun _ _ opened => ⟨⟨[], rfl⟩, opened⟩
    | true =>
      exact .bind (.bool fails true below) fun b =>
        .pure fun _ _ answered => ⟨⟨[b], rfl⟩, answered.2⟩
  unfold Evaluator.evalExpr Linking.requireCall
  refine .bind (.tick fails) fun _ => ?_
  dsimp only
  simp only [Evaluator.evalChain]
  refine .bind (.bind reached fun v? => .of_and fun found => ?_) fun _ => .pure fun _ _ => id
  obtain ⟨v, rfl, identity, statics, rfl⟩ := found
  dsimp only [Evaluator.callOf, Value.isCallable]
  refine .bind args fun out => .of_and fun list => ?_
  obtain ⟨more, list⟩ := list
  rw [list]
  exact .bind (.callNative fails below fun _ => keeps_requireCall covered more)
    fun _ => .pure fun _ _ => id

end

/-! ## Constants -/

theorem keeps_pure {α : Type} (a : α) : o.Keeps names keys (pure a : Script α) :=
  .pure fun _ _ => id

theorem keeps_throw {α : Type} (e : ScriptError) : o.Keeps names keys (throw e : Script α) :=
  .throw e fails

theorem keeps_onHeap {α : Type} (f : Heap → α) : o.Keeps names keys (onHeap f) :=
  .onHeap fun _ _ => id

theorem keeps_native (fn : HostFunction) : o.Keeps names keys (liftM (Alloc.native fn)) :=
  .alloc fun _ _ opened => opened.newId

theorem keeps_nativeOr {α : Type} (method : Option α) (fn : α → HostFunction) :
    o.Keeps names keys (nativeOr method fn) := by
  cases method with
  | none => exact keeps_pure _
  | some f => exact keeps_native _

theorem keeps_functionProperty (fn : Value) (name key : String) :
    o.Keeps names keys (functionProperty fn name key) := by
  unfold functionProperty
  split
  · exact keeps_pure _
  · exact keeps_native _
  · exact keeps_native _
  · exact keeps_native _
  · exact keeps_pure _

/-- Reading makes functions at most. -/
theorem keeps_getProperty (v : Value) (key : String) : o.Keeps names keys (getProperty v key) := by
  cases v with
  | undefined | null => exact keeps_throw _
  | object r =>
    refine .bind (keeps_onHeap _) fun found => ?_
    cases found with
    | some v => exact keeps_pure v
    | none =>
      dsimp only
      split
      · exact keeps_native _
      · exact keeps_native _
      · exact keeps_pure _
  | array r =>
    unfold getProperty
    dsimp only
    split
    · exact keeps_onHeap _
    · split
      · exact keeps_onHeap _
      · exact keeps_nativeOr _ _
  | string text =>
    unfold getProperty
    dsimp only
    split
    · exact keeps_pure _
    · split
      · exact keeps_pure _
      · exact keeps_nativeOr _ _
  | number x => exact keeps_nativeOr _ _
  | bool b =>
    unfold getProperty
    dsimp only
    split
    · exact keeps_native _
    · exact keeps_pure _
  | closure id fn scope path => exact keeps_functionProperty _ _ _
  | native id fn statics =>
    have rest (own : Value) : o.Keeps names keys
        (if own.isUndefined then functionProperty (.native id fn statics) fn.name key
          else pure own) := by
      split
      · exact keeps_functionProperty _ _ _
      · exact keeps_pure _
    cases statics with
    | none => exact .bind (keeps_pure _) rest
    | some r => exact .bind (keeps_onHeap _) rest
  | element id type props elementKey => exact keeps_pure _
  | icons set => exact keeps_pure _

theorem keeps_destructurable (v : Value) : o.Keeps names keys (destructurable v) := by
  unfold destructurable
  split
  · exact .bind (keeps_onHeap _) fun _ => keeps_throw _
  · exact keeps_pure _

/-- A name is bound that no function has and that generated code does not rely on. -/
theorem keeps_bind_ident {ev : Evaluator} {name : Ident}
    (free : ¬Linking.IsReserved name.name ∧ name.name ∉ names) (isMutable : Bool) (v : Value) :
    o.Keeps names keys (ev.bind o.scope isMutable (.ident name) v) := by
  unfold Evaluator.bind
  exact .modifyHeap fun _ _ opened => opened.defineOther free v isMutable

theorem keeps_bindProperties {ev : Evaluator} (isMutable : Bool) (v : Value)
    (list : List (String × Ident))
    (free : ∀ entry ∈ list, ¬Linking.IsReserved entry.2.name ∧ entry.2.name ∉ names) :
    o.Keeps names keys (ev.bindProperties o.scope isMutable v
      (list.map fun entry => Linking.renamed entry.1 entry.2)) := by
  induction list with
  | nil =>
    rw [List.map_nil, Evaluator.bindProperties]
    exact keeps_pure _
  | cons entry rest ih =>
    obtain ⟨here, later⟩ := List.forall_mem_cons.mp free
    have item (v : Value) : o.Keeps names keys (ev.orFallback o.scope v none) := by
      cases v <;> exact keeps_pure _
    rw [List.map_cons, Linking.renamed, Evaluator.bindProperties]
    exact .bind (keeps_pure _) fun _ => .bind (keeps_getProperty v _) fun _ => .bind (item _)
      fun _ => .bind (keeps_bind_ident here isMutable _) fun _ => .bind (ih later)
      fun _ => keeps_pure _

theorem keeps_bind {ev : Evaluator} {pattern : Pattern} (selects : Linking.Selects pattern)
    (free : ∀ name ∈ pattern.names, ¬Linking.IsReserved name ∧ name ∉ names) (isMutable : Bool)
    (v : Value) : o.Keeps names keys (ev.bind o.scope isMutable pattern v) := by
  cases selects with
  | name x =>
    rw [Pattern.names] at free
    exact keeps_bind_ident (free x.name List.mem_cons_self) isMutable v
  | members list =>
    rw [Linking.names_members, List.forall_mem_map] at free
    unfold Evaluator.bind Evaluator.bindRest
    exact .bind (keeps_destructurable v) fun _ => .bind (keeps_bindProperties isMutable v list free)
      fun _ => keeps_pure _

/-! ## Statements -/

/-- A package is bound to names that are free. -/
theorem runs_constant {target : String}
    (covered : (PackageTable.container? o.loader.packages target).isSome = true) {pattern : Pattern}
    (selects : Linking.Selects pattern)
    (free : ∀ name ∈ pattern.names, ¬Linking.IsReserved name ∧ name ∉ names) (all : Bool)
    (site span : Span) (levels : Nat) :
    Runs (o.Holds names keys) ((Evaluator.atLevel levels).exec
        (Linking.constant pattern (Linking.requireCall target all site) span) o.scope)
      (fun c h loaders => c = .normal ∧ o.Holds names keys h loaders) fun _ => o.Unmoved := by
  refine .exec fails levels fun below => ?_
  unfold Linking.constant Evaluator.execKind
  dsimp only [Evaluator.execDeclarators, Declarator.init?, Declarator.pattern]
  exact .bind (.bind (keeps_eval_require covered all site) fun v =>
    .bind (keeps_bind selects free _ v) fun _ => keeps_pure ())
    fun _ => .pure fun _ _ opened => ⟨rfl, opened⟩

/-- A function that is declared is exported. -/
theorem runs_exportAs {name : String} (declared : name ∈ names) (key : String) (site span : Span)
    (levels : Nat) :
    Runs (o.Holds names keys) ((Evaluator.atLevel levels).exec
        (Linking.exportAs key (.ident site name) span) o.scope)
      (fun c h loaders => c = .normal ∧ o.Holds names (key :: keys) h loaders)
      fun _ => o.Unmoved := by
  refine .exec fails levels fun below => ?_
  unfold Linking.exportAs Linking.assignment Evaluator.execKind
  dsimp only
  refine .bind (R := fun _ => o.Holds names (key :: keys)) (.eval fails below fun low => ?_)
    fun _ => .pure fun _ _ opened => ⟨rfl, opened⟩
  unfold Evaluator.evalExpr
  refine .bind (.tick fails) fun _ => ?_
  dsimp only [Evaluator.evalAssign]
  refine .bind (.ident (P := fun v => v.isCallable = true) fails low fun h loaders opened => ?_)
    fun v => .of_and fun callable => .bind (R := fun _ => o.Holds names (key :: keys)) ?_
      fun _ => .pure fun _ _ => id
  · obtain ⟨v, own, callable⟩ := opened.declared name declared
    exact ⟨v, Heap.lookup_of_own own, callable⟩
  unfold Evaluator.assign Evaluator.assignTo
  refine .bind (.ident (P := fun v => v = .object o.exports) fails low fun h loaders opened =>
    ⟨_, Heap.lookup_of_own opened.container, rfl⟩) fun container => .of_and fun eq => ?_
  rw [eq, Evaluator.keyName, pure_bind, setProperty]
  exact .modifyHeap fun _ _ opened => opened.assign key callable

theorem runs_newClosure (fn : Function) (scope : ScopeRef) :
    Runs (o.Holds names keys) (newClosure fn scope)
      (fun v h loaders => v.isCallable = true ∧ o.Holds names keys h loaders)
      fun _ => o.Unmoved :=
  fun _ opened => ⟨rfl, opened.newId⟩

/-- Functions are declared before anything runs. -/
theorem runs_hoist (stmts : List Stmt) (names : List String)
    (free : ∀ name ∈ Linking.functionNames stmts, ¬Linking.IsReserved name) :
    Runs (o.Holds names keys) (Evaluator.hoist o.scope stmts)
      (fun _ => o.Holds (Linking.functionNames stmts ++ names) keys) fun _ => o.Unmoved := by
  unfold Linking.functionNames at free ⊢
  induction stmts generalizing names with
  | nil => exact keeps_pure ()
  | cons t rest ih =>
    cases t with
    | function span fn =>
      cases named : fn.name? with
      | none =>
        rw [List.filterMap_cons, Stmt.functionName?, named] at free ⊢
        rw [Evaluator.hoist, named]
        exact ih names free
      | some name =>
        rw [List.filterMap_cons, Stmt.functionName?, named] at free ⊢
        obtain ⟨here, later⟩ := List.forall_mem_cons.mp free
        rw [Evaluator.hoist, named]
        refine .bind (runs_newClosure fn o.scope) fun v => .of_and fun callable =>
          .bind (R := fun _ => o.Holds (name.name :: names) keys)
            (.modifyHeap fun _ _ opened => opened.defineFunction here callable true) fun _ =>
          (ih (name.name :: names) later).post fun _ _ _ opened =>
            opened.subset (fun n mem => ?_) fun _ => id
        simpa [or_left_comm] using mem
    | _ => exact ih names free

/-- The statements that a module opens with, one after the other. -/
theorem runs_opens {stmts : List Stmt} {exported : List String}
    (opens : Linking.Opens
      (fun target => (PackageTable.container? o.loader.packages target).isSome = true)
      names stmts exported) (keys : List String) (levels : Nat) :
    Runs (o.Holds names keys) ((Evaluator.atLevel levels).execAll o.scope stmts)
      (fun c h loaders => c = .normal ∧ o.Holds names (exported ++ keys) h loaders)
      fun _ => o.Unmoved := by
  induction opens generalizing keys with
  | done => exact .pure fun _ _ opened => ⟨rfl, opened⟩
  | binds covered selects free _ ih =>
    refine .bind (runs_constant covered selects free _ _ _ levels) fun c => .of_and fun normal => ?_
    subst normal
    exact ih keys
  | exports declared _ ih =>
    refine .bind (runs_exportAs declared _ _ _ levels) fun c => .of_and fun normal => ?_
    subst normal
    refine (ih _).post fun c _ _ ended => ⟨ended.1, ended.2.subset (fun _ => id) fun n mem => ?_⟩
    simpa [or_left_comm] using mem

/-! ## Bodies -/

/-- An opening begins with the scope of its module. -/
theorem ends_moduleScope {loader : Loader} {number : Nat} {exports : ObjectRef} {m : Machine}
    (there : m.loaders[number]? = some loader) (isObject : exports.index < m.heap.objects.size) :
    Ends (Evaluator.moduleScope number exports) m
      (fun scope m' => (Opening.mk loader number scope exports).Holds [] [] m'.heap m'.loaders)
      fun _ => False := by
  -- three names are declared in a new scope, and an object and a function are made in between
  let r : ScopeRef := ⟨m.heap.scopes.size⟩
  let h₁ := (m.heap.newScope (some m.realm.globals)).2.define r "exports" (.object exports) false
  let made := (Alloc.members [("exports", .object exports)]) h₁
  let h₂ := made.2.define r "module" made.1 false
  let require : Value := .native (.made h₂.newId.1) (.require number) none
  show Holds _ [] [] (h₂.newId.2.define r "require" require false) m.loaders
  have scopes (h : Heap) (name : String) (v : Value) :
      (h.define r name v false).scopes.size = h.scopes.size := by
    rw [Heap.define, Array.size_modify]
  have size : r.index < (m.heap.newScope (some m.realm.globals)).2.scopes.size := by
    simp [Heap.newScope, r]
  have size₁ : r.index < h₁.scopes.size := by
    rw [scopes]
    exact size
  have size₂ : r.index < h₂.scopes.size := by
    rw [scopes]
    exact size₁
  have declared : h₂.own r "exports" = some (.object exports) := by
    rw [Heap.own_define (h := made.2) size₁, if_neg (by decide)]
    show h₁.own r "exports" = _
    rw [Heap.own_define size, if_pos rfl]
  exact
    { scopes := by
        rw [scopes]
        exact size₂
      objects := by
        show exports.index < (m.heap.objects.push _).size
        rw [Array.size_push]
        exact Nat.lt_succ_of_lt isObject
      require := by
        refine ⟨require, ?_, _, _, rfl⟩
        rw [Heap.own_define (h := h₂.newId.2) size₂, if_pos (by decide)]
      container := by
        rw [Heap.own_define (h := h₂.newId.2) size₂, if_neg (by decide)]
        exact declared
      declared := List.forall_mem_nil _
      exported := List.forall_mem_nil _
      unmoved := ⟨loader.history, there⟩ }

end Opening

namespace Evaluator

/-- A body until its first statements have run. -/
def openBlock (ev : Evaluator) (first rest : List Stmt) (scope : ScopeRef) : Script Completion := do
  hoist scope (first ++ rest)
  ev.execAll scope first

/-- The other statements follow. -/
theorem execBlock_append (ev : Evaluator) (first rest : List Stmt) (scope : ScopeRef) :
    ev.execBlock (first ++ rest) scope = (do
      match ← ev.openBlock first rest scope with
      | .normal => ev.execAll scope rest
      | c => pure c) := by
  have append : ev.execAll scope (first ++ rest) = (do
      match ← ev.execAll scope first with
      | .normal => ev.execAll scope rest
      | c => pure c) := by
    induction first with
    | nil => rfl
    | cons t first ih =>
      rw [List.cons_append, execAll, execAll, bind_assoc, ih]
      refine bind_congr fun c => ?_
      cases c <;> rfl
  rw [execBlock, openBlock, append, bind_assoc]

/-- A module that opens by binding packages and exporting functions has exported them before it
begins another module. -/
theorem ends_openBlock {l : Loader} {first rest : List Stmt} {keys : List String}
    (opens : Linking.Opens
      (fun target => (PackageTable.container? l.packages target).isSome = true)
      (Linking.functionNames (first ++ rest)) first keys)
    (free : ∀ name ∈ Linking.functionNames (first ++ rest), ¬Linking.IsReserved name)
    (levels id : Nat) {exports : ObjectRef} {m : Machine} (there : m.loaders[id]? = some l)
    (isObject : exports.index < m.heap.objects.size) :
    Script.Ends (moduleScope id exports >>= (atLevel levels).openBlock first rest) m
      (fun c m' => c = .normal ∧ (∃ history, m'.loaders[id]? = some { l with history }) ∧
        ∀ key ∈ keys, ∃ v, (m'.heap.members exports).get? key = some v ∧ v.isCallable = true)
      fun m' => ∃ history, m'.loaders[id]? = some { l with history } := by
  rw [Script.ends_bind]
  refine (Opening.ends_moduleScope there isObject).mono (fun scope m' opened => ?_)
    fun _ => False.elim
  have run := Script.Runs.bind (Opening.runs_hoist (first ++ rest) [] free) fun _ =>
    Opening.runs_opens (o := ⟨l, id, scope, exports⟩) (by simpa using opens) [] levels
  refine (run m' opened).mono (fun c m' ended => ⟨ended.1, ended.2.unmoved, fun key mem => ?_⟩)
    fun _ unmoved => unmoved
  exact ended.2.exported key (by simpa using mem)

end Evaluator

end TsxPreview
