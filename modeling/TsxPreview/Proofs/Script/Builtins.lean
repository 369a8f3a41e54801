import TsxPreview.Builtin.Globals
import TsxPreview.Proofs.Script.Made
import TsxPreview.Proofs.Sorting
import TsxPreview.Script.Host

/-!
The functions of the globals, the methods of values and the functions of the host's packages are
made of steps of the evaluator, and so are all functions of the host but one: `require` knows the
loaders.
-/

namespace TsxPreview

open Script

variable {ev : Evaluator}

namespace Evaluator

@[grind ←] theorem made_apply (fn : Value) (args : List Value) : Made ev (ev.apply fn args) :=
  .call ..

end Evaluator

/-! ## Arrays -/

namespace Script

@[grind ←] theorem made_addIndex (a b : Nat) : Made ev (addIndex a b) := by
  unfold addIndex
  grind

@[grind ←] theorem made_subIndex (a b : Nat) : Made ev (subIndex a b) := by
  unfold subIndex
  grind

@[grind ←] theorem made_checkSlice (start stop length : Nat) :
    Made ev (checkSlice start stop length) := by
  unfold checkSlice
  grind

end Script

namespace ArrayMethod

variable (fn this : Value)

@[grind ←] theorem made_visit (item : Value) (i : Nat) : Made ev (visit ev fn this item i) := by
  unfold visit
  grind

@[grind ←] theorem made_mapFrom (items : List Value) (i : Nat) (out : Array Value) :
    Made ev (mapFrom ev fn this items i out) := by
  fun_induction mapFrom ev fn this items i out <;> grind

@[grind ←] theorem made_filterFrom (items : List Value) (i : Nat) (out : Array Value) :
    Made ev (filterFrom ev fn this items i out) := by
  fun_induction filterFrom ev fn this items i out <;> grind

@[grind ←] theorem made_flatMapFrom (items : List Value) (i : Nat) (out : Array Value) :
    Made ev (flatMapFrom ev fn this items i out) := by
  fun_induction flatMapFrom ev fn this items i out <;> grind

@[grind ←] theorem made_search (wanted : Bool) (items : List (Value × Nat)) :
    Made ev (search ev fn this wanted items) := by
  fun_induction search ev fn this wanted items <;> grind

@[grind ←] theorem made_reduceFrom (items : List (Value × Nat)) (acc : Value) :
    Made ev (reduceFrom ev fn this items acc) := by
  fun_induction reduceFrom ev fn this items acc <;> grind

@[grind ←] theorem made_reduceItems (items : List (Value × Nat)) (initial : Option Value) :
    Made ev (reduceItems ev fn this items initial) := by
  unfold reduceItems
  grind

@[grind ←] theorem made_orderOf (a b : Value) : Made ev (orderOf ev fn a b) := by
  unfold orderOf
  grind

/-- A comparison that is remembered to have failed is one, too. -/
theorem made_isLess (a b : Value) (failure : Option ScriptError) :
    Made ev ((isLess ev fn a b).run failure) := by
  have asked : Made ev (attempt (orderOf ev fn a b)) := .attempt (made_orderOf fn a b)
  unfold isLess
  simp only [StateT.run_bind, StateT.run_get, pure_bind]
  split
  · exact .pure _
  · rw [StateT.run_bind]
    refine .bind (.bind asked fun answer => .pure (answer, failure)) fun (answer, failure) => ?_
    cases answer with
    | ok order => exact .pure _
    | error e => exact .pure (false, some e)

/-- What only asks for comparisons is made of them. -/
theorem made_of_gives {α : Type} {x : StateT (Option ScriptError) Script α} {P : α → Prop}
    (h : Sorting.Gives (isLess ev fn) x P) (failure : Option ScriptError) :
    Made ev (x.run failure) := by
  induction h generalizing failure with
  | pure _ => exact .pure _
  | bind _ _ ihx ihf => exact .bind (ihx failure) fun (b, failure) => ihf b failure
  | less a b _ => exact made_isLess fn a b failure

@[grind ←] theorem made_sortItems (items : List Value) : Made ev (sortItems ev fn items) := by
  have sorted := made_of_gives fn (x := (Sorting.sort (isLess ev fn) items).run)
    (Sorting.sort_perm items)
  unfold sortItems
  grind

@[grind ←] theorem made_requireCallback : Made ev (requireCallback fn) := by
  unfold requireCallback
  grind

@[grind ←] theorem made_spliceRange (args : List Value) (size : Nat) :
    Made ev (spliceRange args size) := by
  unfold spliceRange
  grind

@[grind ←] theorem made_change (ref : ArrayRef) (m : ArrayMethod) (args : List Value) :
    Made ev (change ev ref m args) := by
  unfold change
  cases m <;> grind

@[grind ←] theorem made_callBack (ref : ArrayRef) (m : ArrayMethod) (args items : List Value) :
    Made ev (callBack ev ref m args items) := by
  unfold callBack
  cases m <;> grind

@[grind ←] theorem made_read (ref : ArrayRef) (m : ArrayMethod) (args : List Value)
    (items : Array Value) : Made ev (read ref m args items) := by
  unfold read
  cases m <;> grind

@[grind ←] theorem made_run (ref : ArrayRef) (m : ArrayMethod) (args : List Value) :
    Made ev (run ev ref m args) := by
  unfold run
  grind

end ArrayMethod

namespace ArrayFunction

@[grind ←] theorem made_mapPairs (fn : Value) (items : List Value) (i : Nat) (out : Array Value) :
    Made ev (mapPairs ev fn items i out) := by
  fun_induction mapPairs ev fn items i out <;> grind

@[grind ←] theorem made_sourceItems (source : Value) : Made ev (sourceItems source) := by
  unfold sourceItems
  grind

@[grind ←] theorem made_run (f : ArrayFunction) (args : List Value) : Made ev (f.run ev args) := by
  unfold run
  grind

@[grind ←] theorem made_construct (args : List Value) : Made ev (construct args) := by
  unfold construct
  grind

end ArrayFunction

/-! ## Objects and data -/

namespace ObjectFunction

@[grind ←] theorem made_assignAll (target : Value) (sources : List Value) :
    Made ev (assignAll target sources) := by
  fun_induction assignAll target sources <;> grind

@[grind ←] theorem made_ofPairs (pairs : List Value) (out : Record Value) :
    Made ev (ofPairs pairs out) := by
  fun_induction ofPairs pairs out <;> grind

@[grind ←] theorem made_run (f : ObjectFunction) (args : List Value) : Made ev (f.run args) := by
  unfold run
  grind

@[grind ←] theorem made_convert (v : Value) : Made ev (convert v) := by
  unfold convert
  grind

end ObjectFunction

@[grind ←] theorem ErrorName.made_make (name : ErrorName) (args : List Value) :
    Made ev (name.make args) := by
  unfold make
  grind

@[grind ←] theorem ConsoleLevel.made_write (level : ConsoleLevel) (args : List Value) :
    Made ev (level.write args) := by
  unfold write
  grind

namespace JsonFunction

@[grind ←] theorem made_syntaxError (e : Json.ReadError) : Made ev (syntaxError e) := by
  unfold syntaxError
  grind

@[grind ←] theorem made_parseText (text : String) : Made ev (parseText text) := by
  unfold parseText
  grind

@[grind ←] theorem made_run (f : JsonFunction) (args : List Value) : Made ev (f.run args) := by
  unfold run
  grind

end JsonFunction

/-! ## Numbers, dates and texts -/

@[grind ←] theorem MathFunction.made_run (f : MathFunction) (args : List Value) :
    Made ev (f.run args) := by
  unfold run
  grind

@[grind ←] theorem DateMethod.made_construct (args : List Value) : Made ev (construct args) := by
  unfold construct
  grind

@[grind ←] theorem NumberMethod.made_run (x : Float) (m : NumberMethod) (args : List Value) :
    Made ev (run x m args) := by
  unfold run
  grind

@[grind ←] theorem NumberFunction.made_run (f : NumberFunction) (args : List Value) :
    Made ev (f.run args) := by
  unfold run
  grind

namespace TextMethod

@[grind ←] theorem made_cut (cs : List Char) (start stop : Nat) : Made ev (cut cs start stop) := by
  unfold cut
  grind

@[grind ←] theorem made_replacement (pattern : List Char) (v : Value) :
    Made ev (replacement ev pattern v) := by
  unfold replacement
  grind

@[grind ←] theorem made_replaceFirst (pattern cs : List Char) (v : Value) :
    Made ev (replaceFirst ev pattern cs v) := by
  unfold replaceFirst
  grind

@[grind ←] theorem made_replaceBetween (pattern : List Char) (v : Value)
    (stretches : List (List Char)) (out : List Char) :
    Made ev (replaceBetween ev pattern v stretches out) := by
  fun_induction replaceBetween ev pattern v stretches out <;> grind

@[grind ←] theorem made_pad (s : String) (atStart : Bool) (args : List Value) :
    Made ev (pad s atStart args) := by
  unfold pad
  grind

@[grind ←] theorem made_repeated (s : String) (args : List Value) : Made ev (repeated s args) := by
  unfold repeated
  grind

@[grind ←] theorem made_run (s : String) (m : TextMethod) (args : List Value) :
    Made ev (run ev s m args) := by
  unfold run
  cases m <;> grind

end TextMethod

/-! ## Functions and timers -/

namespace FunctionMethod

@[grind ←] theorem made_call (fn : Value) (args : List Value) :
    Made ev (FunctionMethod.call ev fn args) :=
  .call ..

@[grind ←] theorem made_apply (fn : Value) (args : List Value) :
    Made ev (FunctionMethod.apply ev fn args) := by
  unfold FunctionMethod.apply
  grind

@[grind ←] theorem made_bind (fn : Value) (args : List Value) :
    Made ev (FunctionMethod.bind fn args) :=
  made_alloc _

end FunctionMethod

@[grind ←] theorem Timers.made_start (args : List Value) (repeats : Bool) :
    Made ev (Timers.start args repeats) :=
  .store fun m => ⟨_, _, rfl, rfl, rfl, rfl, rfl, rfl, rfl, .refl _,
    Timers.moves_schedule ⟨m.heap, args, repeats, rfl⟩⟩

/-! ## The globals -/

@[grind ←] theorem GlobalFunction.made_run (f : GlobalFunction) (args : List Value) :
    Made ev (f.run args) := by
  unfold run
  grind

@[grind ←] theorem ConstructorName.made_run (c : ConstructorName) (args : List Value) :
    Made ev (c.run args) := by
  unfold run
  grind

/-! ## Elements -/

namespace ElementFunction

@[grind ←] theorem made_elementType (v : Value) : Made ev (elementType v) := by
  unfold elementType
  grind

@[grind ←] theorem made_withChildren (props : Record Value) (children : List Value) :
    Made ev (withChildren props children) := by
  unfold withChildren
  grind

@[grind ←] theorem made_create (args : List Value) : Made ev (create args) := by
  unfold create
  grind

@[grind ←] theorem made_clone (args : List Value) : Made ev (clone args) := by
  unfold clone
  grind

@[grind ←] theorem made_makeContext (value : Value) : Made ev (makeContext value) := by
  unfold makeContext
  grind

@[grind ←] theorem made_run (f : ElementFunction) (args : List Value) : Made ev (f.run args) := by
  unfold run
  grind

end ElementFunction

@[grind ←] theorem ChildrenFunction.made_run (f : ChildrenFunction) (args : List Value) :
    Made ev (f.run ev args) := by
  unfold run
  cases f <;> grind

@[grind ←] theorem Hook.made_useRefSlot (initial : Value) : Made ev (Hook.useRefSlot initial) :=
  .hook .useRef [initial]

/-! ## Slots, icons and classes -/

namespace Slot

@[grind ←] theorem made_mergeStyles (slot child : Value) : Made ev (mergeStyles slot child) := by
  unfold mergeStyles
  grind

@[grind ←] theorem made_mergeProp (name : String) (slot child : Value) :
    Made ev (mergeProp name slot child) := by
  unfold mergeProp
  grind

@[grind ←] theorem made_mergeProps (props : List (String × Value)) (out : Record Value) :
    Made ev (mergeProps props out) := by
  fun_induction mergeProps props out <;> grind

@[grind ←] theorem made_render (props : Value) : Made ev (render props) := by
  unfold render
  grind

@[grind ←] theorem made_handle (child slot this : Value) (args : List Value) :
    Made ev (handle ev child slot this args) := by
  unfold handle
  grind

end Slot

@[grind ←] theorem Icon.made_render (name : String) (props : Value) :
    Made ev (Icon.render name props) := by
  unfold Icon.render
  grind

@[grind ←] theorem ClassFunction.made_run (f : ClassFunction) (args : List Value) :
    Made ev (f.run args) := by
  unfold run
  grind

/-! ## The router -/

namespace RouterFunction

@[grind ←] theorem made_navigation : Made ev navigation := made_onRealm _

@[grind ←] theorem made_moveTo (n : Option Navigation) : Made ev (moveTo n) := by
  unfold moveTo
  grind

@[grind ←] theorem made_goTo (target : String) (replace : Bool) :
    Made ev (goTo target replace) := by
  unfold goTo
  grind

@[grind ←] theorem made_navigate (args : List Value) : Made ev (navigate args) := by
  unfold navigate
  grind

@[grind ←] theorem made_routes (route props : Value) : Made ev (routes route props) := by
  unfold routes
  grind

@[grind ←] theorem made_memory (props : Value) : Made ev (memory props) := by
  unfold memory
  refine .bind (Hook.made_useRefSlot _) fun seeded => .bind (made_onHeap _) fun current => ?_
  split
  · refine .bind (made_onHeap _) fun given => ?_
    -- the entries are those of a list, or there are none
    split <;> refine .bind (by grind) fun entries => .bind (made_onHeap _) fun index => ?_
    all_goals
      dsimp only
      split
      · split <;> refine .bind ?_ fun shown => .bind (made_textOf _) fun location => ?_ <;> grind
      · grind
  · exact made_onHeap _

@[grind ←] theorem made_applyState (props state : Value) (names : List String)
    (attrs : Record Value) : Made ev (applyState ev props state names attrs) := by
  fun_induction applyState ev props state names attrs <;> grind

@[grind ←] theorem made_navAttrs (props : Value) (active : Bool) (attrs : Record Value) :
    Made ev (navAttrs ev props active attrs) := by
  unfold navAttrs
  grind

@[grind ←] theorem made_renderLink (props : Value) (showsState : Bool) :
    Made ev (renderLink ev props showsState) := by
  unfold renderLink
  refine .bind made_navigation fun n => .bind (made_onHeap _) fun target =>
    .bind (made_textOf _) fun target => .bind (made_onHeap _) fun onlyEnd => ?_
  cases showsState <;> grind

@[grind ←] theorem made_follow (handler : Value) (target : String) (replace : Bool)
    (event : Value) : Made ev (follow ev handler target replace event) := by
  unfold follow
  grind

@[grind ←] theorem made_run (f : RouterFunction) (args : List Value) : Made ev (f.run ev args) := by
  unfold run
  grind

end RouterFunction

/-! ## Calls -/

namespace Evaluator

@[grind ←] theorem made_eventMethod (m : EventMethod) (this : Value) :
    Made ev (eventMethod m this) := by
  unfold eventMethod
  grind

theorem made_callHost {fn : HostFunction} (h : ∀ id, fn ≠ .require id) (this : Value)
    (args : List Value) : Made ev (ev.callHost fn this args) := by
  cases fn <;> unfold callHost <;> grind

end Evaluator

end TsxPreview
