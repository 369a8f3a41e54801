import TsxPreview.Syntax.Basic
import TsxPreview.Text.Markup

/-!
Lowering of markup: `<b x="1">hi</b>` becomes the call `__jsx("b", { x: "1" }, "hi")`. What is
lowered also tells whether it met any markup.
-/

namespace TsxPreview

namespace Lowering

/-- The element factory. -/
def factory : String := "__jsx"

/-- The marker of fragments. -/
def fragment : String := "__Fragment"

end Lowering

/-- A value, and whether markup was met on the way to it. -/
structure Traced (α : Type) where
  value : α
  metMarkup : Bool

namespace Traced

variable {α β : Type}

instance : Monad Traced where
  pure x := ⟨x, false⟩
  bind x f := ⟨(f x.value).value, x.metMarkup || (f x.value).metMarkup⟩

/-- Notes that markup was met. -/
def markup : Traced Unit := ⟨(), true⟩

end Traced

mutual

def Expr.lower : Expr → Traced Expr
  | .number s v => pure (.number s v)
  | .string s v => pure (.string s v)
  | .bool s v => pure (.bool s v)
  | .null s => pure (.null s)
  | .ident s n => pure (.ident s n)
  | .template s texts exprs => .template s texts <$> Expr.lowerExprs exprs
  | .array s items => .array s <$> Expr.lowerItems items
  | .object s props => .object s <$> Expr.lowerProperties props
  | .function s fn => .function s <$> fn.lower
  | .member s object key optional => do
    let object ← object.lower
    return .member s object (← key.lower) optional
  | .call s callee args optional => do
    let callee ← callee.lower
    return .call s callee (← Expr.lowerItems args) optional
  | .new s callee args => do
    let callee ← callee.lower
    return .new s callee (← Expr.lowerItems args)
  | .unary s op operand => .unary s op <$> operand.lower
  | .update s op before target => .update s op before <$> target.lower
  | .binary s op left right => do
    let left ← left.lower
    return .binary s op left (← right.lower)
  | .logical s op left right => do
    let left ← left.lower
    return .logical s op left (← right.lower)
  | .conditional s test yes no => do
    let test ← test.lower
    let yes ← yes.lower
    return .conditional s test yes (← no.lower)
  | .assign s op target value => do
    let target ← target.lower
    return .assign s op target (← value.lower)
  | .sequence s exprs => .sequence s <$> Expr.lowerExprs exprs
  | .jsx _ element => element.lower

def Expr.lowerExprs : List Expr → Traced (List Expr)
  | [] => pure []
  | e :: rest => do
    let e ← e.lower
    return e :: (← Expr.lowerExprs rest)

def Expr.lowerOption : Option Expr → Traced (Option Expr)
  | none => pure none
  | some e => some <$> e.lower

def Expr.lowerItems : List Item → Traced (List Item)
  | [] => pure []
  | i :: rest => do
    let i ← i.lower
    return i :: (← Expr.lowerItems rest)

def Item.lower : Item → Traced Item
  | .expr value => .expr <$> value.lower
  | .spread value => .spread <$> value.lower
  | .hole => pure .hole

def Key.lower : Key → Traced Key
  | .named name => pure (.named name)
  | .computed expr => .computed <$> expr.lower

def Expr.lowerProperties : List Property → Traced (List Property)
  | [] => pure []
  | p :: rest => do
    let p ← p.lower
    return p :: (← Expr.lowerProperties rest)

def Property.lower : Property → Traced Property
  | .pair key value => do
    let key ← key.lower
    return .pair key (← value.lower)
  | .shorthand name => pure (.shorthand name)
  | .spread value => .spread <$> value.lower

def Pattern.lower : Pattern → Traced Pattern
  | .ident name => pure (.ident name)
  | .object props rest => do
    let props ← Pattern.lowerProperties props
    return .object props (← Pattern.lowerOption rest)
  | .array elems rest => do
    let elems ← Pattern.lowerElements elems
    return .array elems (← Pattern.lowerOption rest)

def Pattern.lowerOption : Option Pattern → Traced (Option Pattern)
  | none => pure none
  | some p => some <$> p.lower

def Pattern.lowerProperties : List PatternProperty → Traced (List PatternProperty)
  | [] => pure []
  | .mk key binding :: rest => do
    let key ← key.lower
    let binding ← binding.lower
    return .mk key binding :: (← Pattern.lowerProperties rest)

def Pattern.lowerElements : List (Option Binding) → Traced (List (Option Binding))
  | [] => pure []
  | none :: rest => (none :: ·) <$> Pattern.lowerElements rest
  | some binding :: rest => do
    let binding ← binding.lower
    return some binding :: (← Pattern.lowerElements rest)

def Binding.lower : Binding → Traced Binding
  | .mk pattern fallback => do
    let pattern ← pattern.lower
    return .mk pattern (← Expr.lowerOption fallback)

def Function.lowerParams : List Binding → Traced (List Binding)
  | [] => pure []
  | b :: rest => do
    let b ← b.lower
    return b :: (← Function.lowerParams rest)

def Function.lower : Function → Traced Function
  | .mk name params rest body isArrow span => do
    let params ← Function.lowerParams params
    let body ← body.lower
    return .mk name params (← Pattern.lowerOption rest) body isArrow span

def Body.lower : Body → Traced Body
  | .block stmts => .block <$> Stmt.lowerAll stmts
  | .expr value => .expr <$> value.lower

def Stmt.lowerDeclarators : List Declarator → Traced (List Declarator)
  | [] => pure []
  | .mk pattern init span :: rest => do
    let pattern ← pattern.lower
    let init ← Expr.lowerOption init
    return .mk pattern init span :: (← Stmt.lowerDeclarators rest)

def Stmt.lowerAll : List Stmt → Traced (List Stmt)
  | [] => pure []
  | t :: rest => do
    let t ← t.lower
    return t :: (← Stmt.lowerAll rest)

def Stmt.lowerOption : Option Stmt → Traced (Option Stmt)
  | none => pure none
  | some t => some <$> t.lower

def Stmt.lowerBlock : Option (List Stmt) → Traced (Option (List Stmt))
  | none => pure none
  | some stmts => some <$> Stmt.lowerAll stmts

def Stmt.lowerCases : List SwitchCase → Traced (List SwitchCase)
  | [] => pure []
  | .mk test body :: rest => do
    let test ← Expr.lowerOption test
    let body ← Stmt.lowerAll body
    return .mk test body :: (← Stmt.lowerCases rest)

/-- Imports and exports below the top level stay as they are. -/
def Stmt.lower : Stmt → Traced Stmt
  | .«import» s decl => pure (.«import» s decl)
  | .«export» s decl => pure (.«export» s decl)
  | .«break» s => pure (.«break» s)
  | .«continue» s => pure (.«continue» s)
  | .empty s => pure (.empty s)
  | .var s kind declarators => .var s kind <$> Stmt.lowerDeclarators declarators
  | .function s fn => .function s <$> fn.lower
  | .«return» s value => .«return» s <$> Expr.lowerOption value
  | .«if» s test yes no => do
    let test ← test.lower
    let yes ← yes.lower
    return .«if» s test yes (← Stmt.lowerOption no)
  | .«for» s init test update body => do
    let init ← Stmt.lowerOption init
    let test ← Expr.lowerOption test
    let update ← Expr.lowerOption update
    return .«for» s init test update (← body.lower)
  | .forEach s kind binding pattern iterable body => do
    let pattern ← pattern.lower
    let iterable ← iterable.lower
    return .forEach s kind binding pattern iterable (← body.lower)
  | .«while» s test body => do
    let test ← test.lower
    return .«while» s test (← body.lower)
  | .switch s subject cases => do
    let subject ← subject.lower
    return .switch s subject (← Stmt.lowerCases cases)
  | .throw s value => .throw s <$> value.lower
  | .«try» s block param handler finalizer => do
    let block ← Stmt.lowerAll block
    let param ← Pattern.lowerOption param
    let handler ← Stmt.lowerBlock handler
    return .«try» s block param handler (← Stmt.lowerBlock finalizer)
  | .block s stmts => .block s <$> Stmt.lowerAll stmts
  | .expr s value => .expr s <$> value.lower

/-- The call that makes an element. An element without attributes has `null` for its props. -/
def JsxElement.lower : JsxElement → Traced Expr
  | .mk name attrs children span => do
    Traced.markup
    let tag ← name.lower span
    let props ← JsxElement.lowerAttrs span attrs
    let children ← JsxElement.lowerChildren span children
    let props := if attrs.isEmpty then .null span else .object span props
    return .call span (.ident span Lowering.factory) (.expr tag :: .expr props :: children) false

def JsxName.lower (span : Span) : JsxName → Traced Expr
  | .fragment => pure (.ident span Lowering.fragment)
  | .tag name => pure (.string span name)
  | .component expr => expr.lower

def JsxElement.lowerAttrs (span : Span) : List JsxAttr → Traced (List Property)
  | [] => pure []
  | .named name value s :: rest => do
    let value ← JsxElement.lowerAttrValue s value
    return .pair (.named name) value :: (← JsxElement.lowerAttrs span rest)
  | .spread value :: rest => do
    let value ← value.lower
    return .spread value :: (← JsxElement.lowerAttrs span rest)

/-- An attribute without a value is `true`. -/
def JsxElement.lowerAttrValue (span : Span) : Option JsxContent → Traced Expr
  | none => pure (.bool span true)
  | some (.text text) => pure (.string span (decodeEntities text))
  | some (.expr value) => value.lower
  | some (.element element) => element.lower

/-- Text that is only white space around line breaks is no child. -/
def JsxElement.lowerChildren (span : Span) : List JsxContent → Traced (List Item)
  | [] => pure []
  | .text raw :: rest => do
    let rest ← JsxElement.lowerChildren span rest
    return match markupText? raw with
      | some text => .expr (.string span text) :: rest
      | none => rest
  | .expr value :: rest => do
    let value ← value.lower
    return .expr value :: (← JsxElement.lowerChildren span rest)
  | .element element :: rest => do
    let value ← element.lower
    return .expr value :: (← JsxElement.lowerChildren span rest)

end

end TsxPreview
