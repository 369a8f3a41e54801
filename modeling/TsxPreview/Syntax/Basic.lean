import TsxPreview.Source.File

/-!
Syntax trees of the TSX subset. Types are not part of them: annotations are dropped while reading.
Every node keeps its span. Markup occurs in trees as they are read and in none that is run.
-/

namespace TsxPreview

structure Ident where
  name : String
  span : Span
  deriving DecidableEq, Inhabited

inductive VarKind where
  | const | «let» | var
  deriving DecidableEq, Inhabited

def VarKind.text : VarKind → String
  | const => "const"
  | «let» => "let"
  | var => "var"

/-- Over the values of a list, or over the names of properties. -/
inductive ForEachKind where
  | of | «in»
  deriving DecidableEq, Inhabited

inductive UnaryOp where
  | not | neg | plus | typeOf | void
  deriving DecidableEq, Inhabited

inductive UpdateOp where
  | increment | decrement
  deriving DecidableEq, Inhabited

inductive BinaryOp where
  | add | sub | mul | div | mod | exp
  | looseEq | looseNotEq | strictEq | strictNotEq
  | less | greater | lessEq | greaterEq | «in»
  deriving DecidableEq, Inhabited

def BinaryOp.text : BinaryOp → String
  | add => "+" | sub => "-" | mul => "*" | div => "/" | mod => "%" | exp => "**"
  | looseEq => "==" | looseNotEq => "!=" | strictEq => "===" | strictNotEq => "!=="
  | less => "<" | greater => ">" | lessEq => "<=" | greaterEq => ">=" | «in» => "in"

inductive LogicalOp where
  | and | or | nullish
  deriving DecidableEq, Inhabited

def LogicalOp.text : LogicalOp → String
  | and => "&&" | or => "||" | nullish => "??"

inductive AssignOp where
  | assign
  | arithmetic (op : BinaryOp)
  | logical (op : LogicalOp)
  deriving DecidableEq, Inhabited

def AssignOp.text : AssignOp → String
  | assign => "="
  | arithmetic op => op.text ++ "="
  | logical op => op.text ++ "="

/-- One name of an import: `imported as name`. -/
structure ImportName where
  imported : String
  name : Ident
  deriving DecidableEq, Inhabited

structure ImportDecl where
  source : String
  sourceSpan : Span
  default : Option Ident
  star : Option Ident
  named : List ImportName
  /-- The whole import is erased with the types. -/
  typeOnly : Bool
  deriving DecidableEq, Inhabited

/-- One name of an export list: `name as exported`. -/
structure ExportName where
  name : String
  exported : String
  deriving DecidableEq, Inhabited

mutual

inductive Expr where
  | number (span : Span) (value : Float)
  | string (span : Span) (value : String)
  /-- One text more than there are substitutions. -/
  | template (span : Span) (texts : List String) (exprs : List Expr)
  | bool (span : Span) (value : Bool)
  | null (span : Span)
  | ident (span : Span) (name : String)
  | array (span : Span) (items : List Item)
  | object (span : Span) (props : List Property)
  | function (span : Span) (fn : Function)
  | member (span : Span) (object : Expr) (key : Key) (optional : Bool)
  | call (span : Span) (callee : Expr) (args : List Item) (optional : Bool)
  | new (span : Span) (callee : Expr) (args : List Item)
  | unary (span : Span) (op : UnaryOp) (operand : Expr)
  | update (span : Span) (op : UpdateOp) (before : Bool) (target : Expr)
  | binary (span : Span) (op : BinaryOp) (left right : Expr)
  | logical (span : Span) (op : LogicalOp) (left right : Expr)
  | conditional (span : Span) (test yes no : Expr)
  | assign (span : Span) (op : AssignOp) (target value : Expr)
  | sequence (span : Span) (exprs : List Expr)
  | jsx (span : Span) (element : JsxElement)

/-- An element of an array or an argument of a call. Only arrays have holes. -/
inductive Item where
  | expr (value : Expr)
  | spread (value : Expr)
  | hole

/-- The name of a property, fixed or computed. -/
inductive Key where
  | named (name : String)
  | computed (expr : Expr)

inductive Property where
  | pair (key : Key) (value : Expr)
  | shorthand (name : Ident)
  | spread (value : Expr)

/-- What a declaration or a parameter binds. -/
inductive Pattern where
  | ident (name : Ident)
  | object (props : List PatternProperty) (rest : Option Pattern)
  | array (elems : List (Option Binding)) (rest : Option Pattern)

/-- A pattern with the value that stands in for `undefined`. -/
inductive Binding where
  | mk (pattern : Pattern) (fallback : Option Expr)

inductive PatternProperty where
  | mk (key : Key) (binding : Binding)

inductive Function where
  | mk (name : Option Ident) (params : List Binding) (rest : Option Pattern) (body : Body)
      (isArrow : Bool) (span : Span)

inductive Body where
  | block (stmts : List Stmt)
  /-- The concise body of an arrow function. -/
  | expr (value : Expr)

inductive Declarator where
  | mk (pattern : Pattern) (init : Option Expr) (span : Span)

inductive Stmt where
  | «import» (span : Span) (decl : ImportDecl)
  | «export» (span : Span) (decl : ExportDecl)
  | var (span : Span) (kind : VarKind) (declarators : List Declarator)
  | function (span : Span) (fn : Function)
  | «return» (span : Span) (value : Option Expr)
  | «if» (span : Span) (test : Expr) (yes : Stmt) (no : Option Stmt)
  /-- `init` is a `var` or an `expr` statement. -/
  | «for» (span : Span) (init : Option Stmt) (test update : Option Expr) (body : Stmt)
  | forEach (span : Span) (kind : ForEachKind) (binding : VarKind) (pattern : Pattern)
      (iterable : Expr) (body : Stmt)
  | «while» (span : Span) (test : Expr) (body : Stmt)
  | switch (span : Span) (subject : Expr) (cases : List SwitchCase)
  | «break» (span : Span)
  | «continue» (span : Span)
  | throw (span : Span) (value : Expr)
  | «try» (span : Span) (block : List Stmt) (param : Option Pattern)
      (handler finalizer : Option (List Stmt))
  | block (span : Span) (stmts : List Stmt)
  | expr (span : Span) (value : Expr)
  | empty (span : Span)

/-- A clause of a `switch`; the one without a test is the default. -/
inductive SwitchCase where
  | mk (test : Option Expr) (body : List Stmt)

inductive ExportDecl where
  | default (value : Expr)
  | defaultFunction (fn : Function)
  | decl (stmt : Stmt)
  | named (names : List ExportName) (source : Option String) (sourceSpan : Option Span)
  | all (source : String) (sourceSpan : Span) (exported : Option String)

inductive JsxElement where
  | mk (name : JsxName) (attrs : List JsxAttr) (children : List JsxContent) (span : Span)

inductive JsxName where
  | fragment
  | tag (name : String)
  | component (expr : Expr)

inductive JsxAttr where
  | named (name : String) (value : Option JsxContent) (span : Span)
  | spread (value : Expr)

/-- A child of an element or the value of an attribute. The text is raw. -/
inductive JsxContent where
  | text (text : String)
  | expr (value : Expr)
  | element (element : JsxElement)

end

instance : Inhabited Expr := ⟨.null Span.start⟩

instance : Inhabited Stmt := ⟨.empty Span.start⟩

instance : Inhabited Pattern := ⟨.ident default⟩

instance : Inhabited Function := ⟨.mk none [] none (.block []) false Span.start⟩

structure Module where
  body : List Stmt
  span : Span

/-! ### Parts of nodes -/

namespace Function

def name? : Function → Option Ident
  | mk name _ _ _ _ _ => name

def params : Function → List Binding
  | mk _ params _ _ _ _ => params

def rest? : Function → Option Pattern
  | mk _ _ rest _ _ _ => rest

def body : Function → Body
  | mk _ _ _ body _ _ => body

def isArrow : Function → Bool
  | mk _ _ _ _ isArrow _ => isArrow

def span : Function → Span
  | mk _ _ _ _ _ span => span

end Function

def Binding.pattern : Binding → Pattern
  | mk pattern _ => pattern

def Binding.fallback : Binding → Option Expr
  | mk _ fallback => fallback

def Declarator.pattern : Declarator → Pattern
  | mk pattern _ _ => pattern

def Declarator.init? : Declarator → Option Expr
  | mk _ init _ => init

def JsxElement.span : JsxElement → Span
  | mk _ _ _ span => span

namespace Expr

def span : Expr → Span
  | number s _ | string s _ | template s _ _ | bool s _ | null s | ident s _ | array s _
  | object s _ | function s _ | member s _ _ _ | call s _ _ _ | new s _ _ | unary s _ _
  | update s _ _ _ | binary s _ _ _ | logical s _ _ _ | conditional s _ _ _ | assign s _ _ _
  | sequence s _ | jsx s _ => s

def withSpan (s : Span) : Expr → Expr
  | number _ v => number s v
  | string _ v => string s v
  | template _ t e => template s t e
  | bool _ v => bool s v
  | null _ => null s
  | ident _ n => ident s n
  | array _ i => array s i
  | object _ p => object s p
  | function _ f => function s f
  | member _ o k b => member s o k b
  | call _ c a b => call s c a b
  | new _ c a => new s c a
  | unary _ o e => unary s o e
  | update _ o b t => update s o b t
  | binary _ o l r => binary s o l r
  | logical _ o l r => logical s o l r
  | conditional _ t y n => conditional s t y n
  | assign _ o t v => assign s o t v
  | sequence _ e => sequence s e
  | jsx _ e => jsx s e

/-- Names and plain member accesses can be assigned to. -/
def isTarget : Expr → Bool
  | ident _ _ => true
  | member _ _ _ optional => !optional
  | _ => false

end Expr

namespace Stmt

def span : Stmt → Span
  | «import» s _ | «export» s _ | var s _ _ | function s _ | «return» s _ | «if» s _ _ _
  | «for» s _ _ _ _ | forEach s _ _ _ _ _ | «while» s _ _ | switch s _ _ | «break» s
  | «continue» s | throw s _ | «try» s _ _ _ _ | block s _ | expr s _ | empty s => s

/-- The name under which listings show a statement. -/
def kindName : Stmt → String
  | «import» _ _ => "Import"
  | «export» _ (.default _) => "Export.Default"
  | «export» _ (.defaultFunction _) => "Export.DefaultFunction"
  | «export» _ (.decl _) => "Export.Decl"
  | «export» _ (.named _ _ _) => "Export.Named"
  | «export» _ (.all _ _ _) => "Export.All"
  | var _ _ _ => "Var"
  | function _ _ => "Function"
  | «return» _ _ => "Return"
  | «if» _ _ _ _ => "If"
  | «for» _ _ _ _ _ => "For"
  | forEach _ _ _ _ _ _ => "ForEach"
  | «while» _ _ _ => "While"
  | switch _ _ _ => "Switch"
  | «break» _ => "Break"
  | «continue» _ => "Continue"
  | throw _ _ => "Throw"
  | «try» _ _ _ _ _ => "Try"
  | block _ _ => "Block"
  | expr _ _ => "Expr"
  | empty _ => "Empty"

end Stmt

/-! ### Names that patterns bind -/

mutual

/-- Every name that a pattern binds, in source order. -/
def Pattern.names : Pattern → List String
  | .ident id => [id.name]
  | .object props rest => propertyNames props ++ restNames rest
  | .array elems rest => elementNames elems ++ restNames rest

def Pattern.bindingNames : Binding → List String
  | .mk pattern _ => pattern.names

def Pattern.propertyNames : List PatternProperty → List String
  | [] => []
  | .mk _ binding :: rest => bindingNames binding ++ propertyNames rest

def Pattern.elementNames : List (Option Binding) → List String
  | [] => []
  | none :: rest => elementNames rest
  | some binding :: rest => bindingNames binding ++ elementNames rest

def Pattern.restNames : Option Pattern → List String
  | none => []
  | some pattern => pattern.names

end

end TsxPreview
