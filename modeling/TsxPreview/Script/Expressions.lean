import TsxPreview.Script.Patterns

/-!
The meaning of expressions.
-/

namespace TsxPreview.Evaluator

variable (ev : Evaluator)

/-! ### Literals -/

def evalTemplate (scope : ScopeRef) : List String → List Expr → String → Script Value
  | [], _, out => pure (.string out)
  | text :: texts, [], out => evalTemplate scope texts [] (out ++ text)
  | text :: texts, e :: exprs, out => do
    let v ← ev.eval e scope
    let shown ← Script.textOf v
    evalTemplate scope texts exprs (out ++ text ++ shown)

/-- The values of array elements or of arguments; a hole is `undefined`. -/
def evalItems (scope : ScopeRef) : List Item → Array Value → Script (Array Value)
  | [], out => pure out
  | .expr e :: rest, out => do
    let v ← ev.eval e scope
    evalItems scope rest (out.push v)
  | .spread e :: rest, out => do
    let v ← ev.eval e scope
    let items ← Script.iterate v
    evalItems scope rest (out ++ items)
  | .hole :: rest, out => evalItems scope rest (out.push .undefined)

def evalProperties (scope : ScopeRef) : List Property → Record Value → Script (Record Value)
  | [], out => pure out
  | .pair key e :: rest, out => do
    let name ← ev.keyName scope key
    let v ← ev.eval e scope
    evalProperties scope rest (out.insert name v)
  | .shorthand name :: rest, out => do
    let v ← Script.lookup name.name scope
    evalProperties scope rest (out.insert name.name v)
  | .spread e :: rest, out => do
    let v ← ev.eval e scope
    let entries ← Script.ownEntries v
    evalProperties scope rest (entries.foldl (fun r (name, v) => r.insert name v) out)

/-! ### Chains of members and calls -/

/-- How a message names what was called. -/
def calleeLabel : Expr → String
  | .ident _ name => name
  | .member _ object (.named name) _ => calleeLabel object ++ "." ++ name
  | .member _ object _ _ => calleeLabel object ++ "[...]"
  | .call _ callee _ _ => calleeLabel callee ++ "(...)"
  | _ => "expression"

/-- Reads a member, unless the access is optional and there is no object. -/
def memberOf (scope : ScopeRef) (object : Value) (key : Key) (isOptional : Bool) :
    Script (Option Value) :=
  if isOptional && object.isNullish then pure none
  else do
    let name ← ev.keyName scope key
    return some (← Script.getProperty object name)

/-- Calls what a chain has reached, unless the call is optional and there is nothing. -/
def callOf (scope : ScopeRef) (callee : Expr) (fn this : Value) (args : List Item)
    (isOptional : Bool) : Script (Option Value) :=
  if isOptional && fn.isNullish then pure none
  else if !fn.isCallable then Script.typeError (.notFunction (calleeLabel callee))
  else do
    let args ← ev.evalItems scope args #[]
    return some (← ev.call fn this args.toList)

/-- A chain; `none` if an optional link cut it short. -/
def evalChain (scope : ScopeRef) : Expr → Script (Option Value)
  | .member _ object key isOptional => do
    match ← evalChain scope object with
    | none => pure none
    | some object => ev.memberOf scope object key isOptional
  | .call _ (.member s object key isOptional) args callOptional => do
    match ← evalChain scope object with
    | none => pure none
    | some this =>
      match ← ev.memberOf scope this key isOptional with
      | none => pure none
      | some fn => ev.callOf scope (.member s object key isOptional) fn this args callOptional
  | .call _ callee args callOptional => do
    match ← evalChain scope callee with
    | none => pure none
    | some fn => ev.callOf scope callee fn .undefined args callOptional
  | e => do return some (← ev.eval e scope)

/-- Only host functions construct. -/
def construct (callee : Value) (args : List Value) : Script Value :=
  match callee with
  | .native _ _ _ => ev.call callee .undefined args
  | .closure _ _ _ _ => throw (.unsupported .newClosure)
  | v => Script.typeError (.notConstructor v.typeName)

/-! ### Operators -/

/-- `typeof` of a name that is not declared is `undefined`. -/
def evalUnary (scope : ScopeRef) (op : UnaryOp) (operand : Expr) : Script Value := do
  let undeclared ← match op, operand with
    | .typeOf, .ident _ name => Script.onHeap fun h => !h.isDeclared scope name
    | _, _ => pure false
  if undeclared then return .string "undefined"
  else Script.unary op (← ev.eval operand scope)

def evalUpdate (scope : ScopeRef) (op : UpdateOp) (before : Bool) (target : Expr) :
    Script Value := do
  let v ← ev.eval target scope
  let old ← Script.numberOf v
  let new := match op with
    | .increment => old + 1
    | .decrement => old - 1
  ev.assign scope target (.number new)
  return .number (if before then new else old)

def evalAssign (scope : ScopeRef) (op : AssignOp) (target value : Expr) : Script Value := do
  match op with
  | .assign =>
    let v ← ev.eval value scope
    ev.assign scope target v
    return v
  | .logical op =>
    let current ← ev.eval target scope
    if op.decides current then return current
    let v ← ev.eval value scope
    ev.assign scope target v
    return v
  | .arithmetic op =>
    let current ← ev.eval target scope
    let operand ← ev.eval value scope
    let v ← Script.binary op current operand
    ev.assign scope target v
    return v

def evalSequence (scope : ScopeRef) : List Expr → Value → Script Value
  | [], last => pure last
  | e :: rest, _ => do
    let v ← ev.eval e scope
    evalSequence scope rest v

/-- The value of an expression. -/
def evalExpr (e : Expr) (scope : ScopeRef) : Script Value := do
  Script.tick
  match e with
  | .number _ x => return .number x
  | .string _ s => return .string s
  | .bool _ b => return .bool b
  | .null _ => return .null
  | .template _ texts exprs => ev.evalTemplate scope texts exprs ""
  | .ident _ name => Script.lookup name scope
  | .array _ items => Alloc.array (← ev.evalItems scope items #[])
  | .object _ props => Alloc.object (← ev.evalProperties scope props .empty)
  | .function _ fn => Script.newClosure fn scope
  | .member _ _ _ _ | .call _ _ _ _ => return (← ev.evalChain scope e).getD .undefined
  | .new _ callee args =>
    let callee ← ev.eval callee scope
    let args ← ev.evalItems scope args #[]
    ev.construct callee args.toList
  | .unary _ op operand => ev.evalUnary scope op operand
  | .update _ op before target => ev.evalUpdate scope op before target
  | .binary _ op left right =>
    let a ← ev.eval left scope
    let b ← ev.eval right scope
    Script.binary op a b
  | .logical _ op left right =>
    let a ← ev.eval left scope
    if op.decides a then return a else ev.eval right scope
  | .conditional _ test yes no =>
    if (← ev.eval test scope).isTruthy then ev.eval yes scope else ev.eval no scope
  | .assign _ op target value => ev.evalAssign scope op target value
  | .sequence _ exprs => ev.evalSequence scope exprs .undefined
  | .jsx _ _ => throw (.unsupported .markup)

end TsxPreview.Evaluator
