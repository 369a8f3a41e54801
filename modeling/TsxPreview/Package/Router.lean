import TsxPreview.Package.Hook

/-!
The router: routes choose by the location of the realm, and links change it.
-/

namespace TsxPreview.RouterFunction

variable (ev : Evaluator)

def navigation : Script Navigation := Script.onRealm Realm.navigation

/-- Moves, and asks for a render. -/
def moveTo (n : Option Navigation) : Script Unit :=
  match n with
  | some navigation => Script.modifyRealm fun r =>
    { r with navigation, hooks := { r.hooks with dirty := true } }
  | none => pure ()

def goTo (target : String) (replace : Bool) : Script Unit := do
  moveTo ((← navigation).goTo target replace)

/-- What `useNavigate` hands out: a negative number goes back, all else that is no number names a
location. -/
def navigate (args : List Value) : Script Value := do
  match argument args 0 with
  | .number x => if x < 0 then moveTo ((← navigation).goBack (Binary64.toIndex (-x)))
  | target =>
    let replace ← Script.onHeap fun h => ((argument args 1).get h "replace").isTruthy
    goTo (← Script.textOf target) replace
  return .undefined

/-! ### Routes -/

/-- The props of the route elements among children; lists and fragments are opened. -/
def routesAmong (h : Heap) (route : Value) : Nat → Value → List ObjectRef
  | 0, _ => []
  | levels + 1, .array r => (h.items r).toList.flatMap (routesAmong h route levels)
  | levels + 1, .element _ .fragment props _ =>
    routesAmong h route levels ((Value.object props).get h "children")
  | _, .element _ (.component c) props _ => if c.strictEq route then [props] else []
  | _, _ => []

/-- The pattern of a route under that of its parent. -/
def patternOf (base : String) : Value → String
  | .string path =>
    if path.toList.head? == some '/' then path
    else String.ofList ((base.toList.reverse.dropWhile (· == '/')).reverse) ++ "/" ++ path
  | _ => base

/-- The element of the first route that matches a path, and what its pattern captures. A route
without an element stands for its children. -/
def select (h : Heap) (route : Value) (path : String) :
    Nat → String → Value → Option (Value × List (String × String))
  | 0, _, _ => none
  | levels + 1, base, children =>
    (routesAmong h route Heap.levels children).findSome? fun props =>
      let get (name : String) := (Value.object props).get h name
      let pattern := patternOf base (get "path")
      if !(get "children").isNullish && (get "element").isNullish then
        select h route path levels pattern (get "children")
      else (Navigation.matchPath? pattern path).map fun params => (get "element", params)

def routes (route props : Value) : Script Value := do
  let path := (← navigation).pathname
  let found ← Script.onHeap fun h =>
    select h route path Heap.levels "" (props.get h "children")
  let (element, params) := found.getD (.null, [])
  Script.modifyRealm fun r => { r with navigation := { r.navigation with params } }
  return element

/-- Starts from the given entries, once for each instance. -/
def memory (props : Value) : Script Value := do
  let seeded ← Hook.useRefSlot (.bool false)
  let get (v : Value) (name : String) : Script Value := Script.onHeap fun h => v.get h name
  if !(← get seeded "current").isTruthy then
    let entries ← match ← get props "initialEntries" with
      | .array r => Script.onHeap fun h => (h.items r).toList
      | _ => pure []
    let last := entries.length - 1
    let index := match ← get props "initialIndex" with
      | .number x => if 0 <= x then Binary64.toIndex x else last
      | _ => last
    if let some entry := entries[index]? then
      let shown ← match entry with
        | .object _ => get entry "pathname"
        | v => pure v
      let location ← Script.textOf shown
      let earlier ← Script.onHeap fun h => (entries.take index).map (Value.text h)
      Script.modifyRealm fun r =>
        { r with navigation := { r.navigation with location, history := earlier.reverse } }
    Script.setProperty seeded "current" (.bool true)
  get props "children"

/-! ### Links -/

/-- Whether a link's target is where one is, or above it unless only the end counts. -/
def isActive (current target : List Char) (onlyEnd : Bool) : Bool :=
  current == target
    || (!onlyEnd && target != ['/'] && (target ++ ['/']).isPrefixOf current)

/-- Props that may be functions of the state of the link. -/
def stateProps : List String := ["className", "style", "children"]

def applyState (props state : Value) : List String → Record Value → Script (Record Value)
  | [], attrs => pure attrs
  | name :: rest, attrs => do
    let v ← Script.onHeap fun h => props.get h name
    if v.isCallable then
      let answer ← ev.apply v [state]
      applyState props state rest (attrs.insert name answer)
    else applyState props state rest attrs

/-- The class names of an active link. -/
def activeClass (h : Heap) : Option Value → String
  | some (.string s) => if s.isEmpty then "active" else s ++ " active"
  | none => "active"
  | some v => v.text h

/-- What a link that shows its state adds. -/
def navAttrs (props : Value) (active : Bool) (attrs : Record Value) : Script (Record Value) := do
  let state ← Alloc.members [("isActive", .bool active), ("isPending", .bool false)]
  let attrs ← applyState ev props state stateProps attrs
  if !active then return attrs
  let classes ← Script.onHeap fun h => activeClass h (attrs.get? "className")
  let own ← Script.onHeap fun h => props.get h "className"
  let attrs := if own.isCallable then attrs else attrs.insert "className" (.string classes)
  return attrs.insert "aria-current" (.string "page")

/-- Props that an anchor does not show. -/
def linkProps : List String := ["to", "replace", "end", "state"]

/-- An anchor that moves when it is clicked. -/
def renderLink (props : Value) (showsState : Bool) : Script Value := do
  let get (name : String) : Script Value := Script.onHeap fun h => props.get h name
  let n ← navigation
  let href := n.locate (← Script.textOf (← get "to"))
  let onlyEnd := (← get "end").isTruthy
  let active := showsState
    && isActive n.pathname.toList (Navigation.pathOf href.toList) onlyEnd
  let own := (← Script.ownEntries props).filter fun (name, _) => !linkProps.contains name
  let attrs := (Record.ofList own).insert "href" (.string href)
  let attrs ← if showsState then navAttrs ev props active attrs else pure attrs
  let handler ← get "onClick"
  let replace := (← get "replace").isTruthy
  let follow ← Alloc.native (.follow handler href replace)
  Alloc.element (.tag "a") (attrs.insert "onClick" follow) none

/-- A click on a link: the user's own handler may prevent the move. -/
def follow (handler : Value) (target : String) (replace : Bool) (event : Value) :
    Script Value := do
  if handler.isCallable then
    let _ ← ev.apply handler [event]
  if (← Script.onHeap fun h => event.get h "defaultPrevented").isTruthy then return .undefined
  let prevent ← Script.onHeap fun h => event.get h "preventDefault"
  if prevent.isCallable then
    let _ ← ev.call prevent event []
  goTo target replace
  return .undefined

def run (f : RouterFunction) (args : List Value) : Script Value := do
  let props := argument args 0
  match f with
  | browserRouter => Script.onHeap fun h => props.get h "children"
  | memoryRouter => memory props
  | route => Script.onHeap fun h => props.get h "element"
  | link => renderLink ev props false
  | navLink => renderLink ev props true
  | useNavigate => Alloc.native .navigate
  | useLocation =>
    let n ← navigation
    Alloc.members [("pathname", .string n.pathname), ("search", .string n.search),
      ("hash", .string n.hash), ("state", .null), ("key", .string "default")]
  | useParams =>
    let n ← navigation
    Alloc.members (n.params.map fun (name, s) => (name, .string s))

end TsxPreview.RouterFunction
