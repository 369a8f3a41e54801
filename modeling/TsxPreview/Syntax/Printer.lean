import TsxPreview.Syntax.Basic
import TsxPreview.Number.Notation
import TsxPreview.Text.Letter
import TsxPreview.Text.Quoted

/-!
Syntax trees as program text: two spaces a level, double quotes, every body in braces. Parentheses
stand exactly where an operand binds looser than its place asks for.
-/

namespace TsxPreview

namespace Printer

/-! ### Precedence -/

def sequenceLevel : Nat := 1
def assignLevel : Nat := 2
def conditionalLevel : Nat := 3
def nullishLevel : Nat := 4
def andLevel : Nat := 5
def unaryLevel : Nat := 15
def postfixLevel : Nat := 16
def callLevel : Nat := 18
def primaryLevel : Nat := 20

def binaryLevel : BinaryOp → Nat
  | .looseEq | .looseNotEq | .strictEq | .strictNotEq => 9
  | .less | .greater | .lessEq | .greaterEq | .in => 10
  | .add | .sub => 12
  | .mul | .div | .mod => 13
  | .exp => 14

def logicalLevel : LogicalOp → Nat
  | .or | .nullish => nullishLevel
  | .and => andLevel

/-- How tightly an expression binds. -/
def level : Expr → Nat
  | .sequence _ _ => sequenceLevel
  | .assign _ _ _ _ => assignLevel
  | .function _ fn => if fn.isArrow then assignLevel else primaryLevel
  | .conditional _ _ _ _ => conditionalLevel
  | .logical _ op _ _ => logicalLevel op
  | .binary _ op _ _ => binaryLevel op
  | .unary _ _ _ => unaryLevel
  | .update _ _ before _ => if before then unaryLevel else postfixLevel
  | .new _ _ _ | .call _ _ _ _ | .member _ _ _ _ => callLevel
  | _ => primaryLevel

/-- `??` and the other logical operators do not mix without parentheses. -/
def mixesNullish (parent : LogicalOp) : Expr → Bool
  | .logical _ op _ _ => (parent == .nullish) != (op == .nullish)
  | _ => false

/-- The text begins with `{` or `function`, which a statement may not. -/
def startsAmbiguously : Expr → Bool
  | .object _ _ => true
  | .function _ fn => !fn.isArrow
  | .member _ object _ _ => startsAmbiguously object
  | .call _ callee _ _ => startsAmbiguously callee
  | .binary _ _ left _ => startsAmbiguously left
  | .logical _ _ left _ => startsAmbiguously left
  | .assign _ _ target _ => startsAmbiguously target
  | .conditional _ test _ _ => startsAmbiguously test
  | .update _ _ before target => !before && startsAmbiguously target
  | .sequence _ (first :: _) => startsAmbiguously first
  | _ => false

def isSignedOperand : Expr → Bool
  | .unary _ _ _ => true
  | .update _ _ before _ => before
  | _ => false

def isNumber : Expr → Bool
  | .number _ _ => true
  | _ => false

def isIf : Stmt → Bool
  | .if _ _ _ _ => true
  | _ => false

def isBlock : Stmt → Bool
  | .block _ _ => true
  | _ => false

/-! ### Leaves -/

def isNameStart (c : Char) : Bool := isLetter c || c == '_' || c == '$'

def isNamePart (c : Char) : Bool := isLetter c || isNumeral c || c == '_' || c == '$'

/-- Can stand without quotes as the name of a property. -/
def isName (s : String) : Bool :=
  match s.toList with
  | [] => false
  | c :: rest => isNameStart c && rest.all isNamePart

def number (x : Float) : String :=
  match Binary64.toInt? x with
  | some n => if n.natAbs < Nat.pow 10 15 then toString n else Style.plain.format x
  | none =>
    if x.isNaN then "NaN"
    else if x.isInf then if 0 < x then "Infinity" else "-Infinity"
    else Style.plain.format x

def unaryText : UnaryOp → String
  | .not => "!"
  | .neg => "-"
  | .plus => "+"
  | .typeOf => "typeof "
  | .void => "void "

def updateText : UpdateOp → String
  | .increment => "++"
  | .decrement => "--"

def parens (s : String) : String := "(" ++ s ++ ")"

def braces (s : String) : String := "\x7b" ++ s ++ "\x7d"

def commas (parts : List String) : String := String.intercalate ", " parts

/-- In parentheses unless `e` binds at least as tightly as `least`. -/
def atLeast (least : Nat) (e : Expr) (text : String) : String :=
  if level e < least then parens text else text

/-- An operand of a logical operator. -/
def logicalOperand (op : LogicalOp) (least : Nat) (e : Expr) (text : String) : String :=
  if mixesNullish op e then parens text else atLeast least e text

def statementStart (e : Expr) (text : String) : String :=
  if startsAmbiguously e then parens text else text

def margin (indent : Nat) : String := String.join (List.replicate indent "  ")

def bareKey (name : String) : String := if isName name then name else quote name

def renamed (name other : String) : String :=
  if name == other then name else name ++ " as " ++ other

def importText (decl : ImportDecl) : String :=
  let named := decl.named.map fun n => renamed n.imported n.name.name
  let clauses := (decl.default.map Ident.name).toList
    ++ (decl.star.map fun id => "* as " ++ id.name).toList
    ++ if named.isEmpty then [] else [braces (" " ++ commas named ++ " ")]
  let bindings := if clauses.isEmpty then "" else commas clauses ++ " from "
  "import " ++ (if decl.typeOnly then "type " else "") ++ bindings ++ quote decl.source ++ ";"

/-- The texts of a template with the substitutions between them. -/
def weave : List String → List String → String
  | [], _ => ""
  | text :: texts, [] => String.ofList (Quoted.encodeTemplate text.toList) ++ weave texts []
  | text :: texts, e :: es =>
    String.ofList (Quoted.encodeTemplate text.toList) ++ "$" ++ braces e ++ weave texts es

/-- A pattern property whose value is named like its key. -/
def isShorthand : Key → Pattern → Bool
  | .named key, .ident id => key == id.name
  | _, _ => false

/-- A comma after a last hole, which would otherwise be lost. -/
def closingComma (items : List Item) : String :=
  match items.getLast? with
  | some .hole => ","
  | _ => ""

def closingHole (elems : List (Option Binding)) (rest : Option Pattern) : String :=
  match rest, elems.getLast? with
  | none, some none => ","
  | _, _ => ""

/-- A rest after other parts. -/
def afterOthers (empty : Bool) (rest : String) : String :=
  if rest.isEmpty then "" else (if empty then "" else ", ") ++ rest

def isFragment : JsxName → Bool
  | .fragment => true
  | _ => false

/-- Statements between braces; the opening brace stands on the current line. -/
def block (indent : Nat) (b : List Stmt) (lines : String) : String :=
  if b.isEmpty then braces "" else braces ("\n" ++ lines ++ margin indent)

/-- The body of a conditional or a loop, always in braces; `text` prints it at a given level. -/
def body (indent : Nat) (s : Stmt) (text : Nat → String) : String :=
  if isBlock s then text indent
  else braces ("\n" ++ margin (indent + 1) ++ text (indent + 1) ++ "\n" ++ margin indent)

/-! ### Nodes -/

mutual

/-- An expression without parentheses of its own, inside `indent` levels. -/
def expr (indent : Nat) : Expr → String
  | .number _ value => number value
  | .string _ value => quote value
  | .template _ texts es => "`" ++ weave texts (exprs indent 0 es) ++ "`"
  | .bool _ value => if value then "true" else "false"
  | .null _ => "null"
  | .ident _ name => name
  | .array _ list => "[" ++ commas (items indent list) ++ closingComma list ++ "]"
  | .object _ [] => braces ""
  | .object _ props => braces (" " ++ commas (properties indent props) ++ " ")
  | .function _ fn => function indent fn
  | .member _ object key optional =>
    (if isNumber object then parens (expr indent object)
      else atLeast callLevel object (expr indent object)) ++ memberKey indent optional key
  | .call _ callee args optional =>
    atLeast callLevel callee (expr indent callee) ++ (if optional then "?." else "")
      ++ parens (commas (items indent args))
  | .new _ callee args =>
    "new " ++ atLeast (callLevel + 1) callee (expr indent callee)
      ++ parens (commas (items indent args))
  | .unary _ op operand =>
    unaryText op ++ if isSignedOperand operand then parens (expr indent operand)
      else atLeast unaryLevel operand (expr indent operand)
  | .update _ op before target =>
    if before then updateText op ++ atLeast postfixLevel target (expr indent target)
    else atLeast postfixLevel target (expr indent target) ++ updateText op
  | .binary _ op left right =>
    let p := binaryLevel op
    let (l, r) := if op == .exp then (p + 1, p) else (p, p + 1)
    atLeast l left (expr indent left) ++ " " ++ op.text ++ " "
      ++ atLeast r right (expr indent right)
  | .logical _ op left right =>
    let p := logicalLevel op
    logicalOperand op p left (expr indent left) ++ " " ++ op.text ++ " "
      ++ logicalOperand op (p + 1) right (expr indent right)
  | .conditional _ test yes no =>
    atLeast nullishLevel test (expr indent test) ++ " ? "
      ++ atLeast assignLevel yes (expr indent yes) ++ " : "
      ++ atLeast assignLevel no (expr indent no)
  | .assign _ op target value =>
    atLeast callLevel target (expr indent target) ++ " " ++ op.text ++ " "
      ++ atLeast assignLevel value (expr indent value)
  | .sequence _ es => commas (exprs indent assignLevel es)
  | .jsx _ e => element indent e

def exprs (indent least : Nat) : List Expr → List String
  | [] => []
  | e :: es => atLeast least e (expr indent e) :: exprs indent least es

def items (indent : Nat) : List Item → List String
  | [] => []
  | .expr e :: rest => atLeast assignLevel e (expr indent e) :: items indent rest
  | .spread e :: rest => ("..." ++ atLeast assignLevel e (expr indent e)) :: items indent rest
  | .hole :: rest => "" :: items indent rest

def properties (indent : Nat) : List Property → List String
  | [] => []
  | .pair k e :: rest =>
    (key indent k ++ ": " ++ atLeast assignLevel e (expr indent e)) :: properties indent rest
  | .shorthand id :: rest => id.name :: properties indent rest
  | .spread e :: rest => ("..." ++ atLeast assignLevel e (expr indent e)) :: properties indent rest

def key (indent : Nat) : Key → String
  | .named name => bareKey name
  | .computed e => "[" ++ atLeast assignLevel e (expr indent e) ++ "]"

def memberKey (indent : Nat) (optional : Bool) : Key → String
  | .named name => (if optional then "?." else ".") ++ name
  | .computed e => (if optional then "?.[" else "[") ++ expr indent e ++ "]"

def function (indent : Nat) : Function → String
  | .mk name params rest b isArrow _ =>
    let list := parens (commas (bindings indent params)
      ++ afterOthers params.isEmpty (restPattern indent rest))
    if isArrow then list ++ " => " ++ arrowBody indent b
    else "function" ++ ((name.map fun id => " " ++ id.name).getD "") ++ list ++ " "
      ++ functionBody indent b

def arrowBody (indent : Nat) : Body → String
  | .block b => block indent b (stmts (indent + 1) b)
  | .expr e =>
    if startsAmbiguously e then parens (expr indent e)
    else atLeast assignLevel e (expr indent e)

def functionBody (indent : Nat) : Body → String
  | .block b => block indent b (stmts (indent + 1) b)
  | .expr e => braces (" return " ++ expr indent e ++ "; ")

def bindings (indent : Nat) : List Binding → List String
  | [] => []
  | b :: rest => binding indent b :: bindings indent rest

def binding (indent : Nat) : Binding → String
  | .mk p e => pattern indent p ++ fallback indent e

/-- ` = value`, if there is one. -/
def fallback (indent : Nat) : Option Expr → String
  | none => ""
  | some e => " = " ++ atLeast assignLevel e (expr indent e)

def pattern (indent : Nat) : Pattern → String
  | .ident id => id.name
  | .object [] none => braces ""
  | .object props rest =>
    braces (" " ++ commas (patternProperties indent props)
      ++ afterOthers props.isEmpty (restPattern indent rest) ++ " ")
  | .array elems rest =>
    "[" ++ commas (patternElements indent elems)
      ++ afterOthers elems.isEmpty (restPattern indent rest) ++ closingHole elems rest ++ "]"

def restPattern (indent : Nat) : Option Pattern → String
  | none => ""
  | some p => "..." ++ pattern indent p

def patternProperties (indent : Nat) : List PatternProperty → List String
  | [] => []
  | .mk k (.mk p e) :: rest =>
    ((if isShorthand k p then "" else key indent k ++ ": ") ++ pattern indent p
      ++ fallback indent e) :: patternProperties indent rest

def patternElements (indent : Nat) : List (Option Binding) → List String
  | [] => []
  | none :: rest => "" :: patternElements indent rest
  | some b :: rest => binding indent b :: patternElements indent rest

/-- Statements on lines of their own. -/
def stmts (indent : Nat) : List Stmt → String
  | [] => ""
  | s :: rest => margin indent ++ stmt indent s ++ "\n" ++ stmts indent rest

def stmt (indent : Nat) : Stmt → String
  | .import _ decl => importText decl
  | .export _ decl => "export " ++ exportDecl indent decl
  | .var _ kind list => kind.text ++ " " ++ commas (declarators indent list) ++ ";"
  | .function _ fn => function indent fn
  | .return _ value => "return" ++ returned indent value ++ ";"
  | .if _ test yes no =>
    "if " ++ parens (expr indent test) ++ " " ++ body indent yes (stmt · yes) ++ otherwise indent no
  | .for _ init test update b =>
    "for " ++ parens (forInit indent init ++ ";" ++ returned indent test ++ ";"
      ++ returned indent update) ++ " " ++ body indent b (stmt · b)
  | .forEach _ kind binding p iterable b =>
    "for " ++ parens (binding.text ++ " " ++ pattern indent p
      ++ (if kind == .of then " of " else " in ")
      ++ atLeast assignLevel iterable (expr indent iterable)) ++ " " ++ body indent b (stmt · b)
  | .while _ test b => "while " ++ parens (expr indent test) ++ " " ++ body indent b (stmt · b)
  | .switch _ subject clauses =>
    "switch " ++ parens (expr indent subject) ++ " "
      ++ braces ("\n" ++ cases (indent + 1) clauses ++ margin indent)
  | .break _ => "break;"
  | .continue _ => "continue;"
  | .throw _ value => "throw " ++ expr indent value ++ ";"
  | .try _ b param handler finalizer =>
    "try " ++ block indent b (stmts (indent + 1) b)
      ++ catchPart indent (catchParameter indent param) handler ++ finallyPart indent finalizer
  | .block _ b => block indent b (stmts (indent + 1) b)
  | .expr _ e => statementStart e (expr indent e) ++ ";"
  | .empty _ => ";"

def returned (indent : Nat) : Option Expr → String
  | none => ""
  | some e => " " ++ expr indent e

def otherwise (indent : Nat) : Option Stmt → String
  | none => ""
  | some s => " else " ++ if isIf s then stmt indent s else body indent s (stmt · s)

/-- The first part of a counting loop, without a semicolon. -/
def forInit (indent : Nat) : Option Stmt → String
  | some (.var _ kind list) => kind.text ++ " " ++ commas (declarators indent list)
  | some (.expr _ e) => expr indent e
  | _ => ""

def declarators (indent : Nat) : List Declarator → List String
  | [] => []
  | .mk p init _ :: rest => (pattern indent p ++ fallback indent init) :: declarators indent rest

def cases (indent : Nat) : List SwitchCase → String
  | [] => ""
  | .mk test b :: rest =>
    margin indent ++ caseTest indent test ++ ":\n" ++ stmts (indent + 1) b ++ cases indent rest

def caseTest (indent : Nat) : Option Expr → String
  | none => "default"
  | some e => "case " ++ expr indent e

def catchParameter (indent : Nat) : Option Pattern → String
  | none => ""
  | some p => parens (pattern indent p) ++ " "

def catchPart (indent : Nat) (param : String) : Option (List Stmt) → String
  | none => ""
  | some b => " catch " ++ param ++ block indent b (stmts (indent + 1) b)

def finallyPart (indent : Nat) : Option (List Stmt) → String
  | none => ""
  | some b => " finally " ++ block indent b (stmts (indent + 1) b)

def exportDecl (indent : Nat) : ExportDecl → String
  | .default e => "default " ++ atLeast assignLevel e (expr indent e) ++ ";"
  | .defaultFunction fn => "default " ++ function indent fn
  | .decl s => stmt indent s
  | .named names source _ =>
    braces (" " ++ commas (names.map fun n => renamed n.name n.exported) ++ " ")
      ++ ((source.map fun s => " from " ++ quote s).getD "") ++ ";"
  | .all source _ exported =>
    "*" ++ ((exported.map fun name => " as " ++ name).getD "") ++ " from " ++ quote source ++ ";"

def element (indent : Nat) : JsxElement → String
  | .mk name attrs children _ =>
    let opening := "<" ++ elementName indent name ++ attributes indent attrs
    if children.isEmpty && !isFragment name then opening ++ " />"
    else opening ++ ">" ++ contents indent children ++ "</" ++ elementName indent name ++ ">"

def elementName (indent : Nat) : JsxName → String
  | .fragment => ""
  | .tag name => name
  | .component e => atLeast callLevel e (expr indent e)

def attributes (indent : Nat) : List JsxAttr → String
  | [] => ""
  | .named name value _ :: rest =>
    " " ++ name ++ attributeValue indent value ++ attributes indent rest
  | .spread e :: rest =>
    " " ++ braces ("..." ++ atLeast assignLevel e (expr indent e)) ++ attributes indent rest

def attributeValue (indent : Nat) : Option JsxContent → String
  | none => ""
  | some (.text text) => "=" ++ quote text
  | some (.expr e) => "=" ++ braces (atLeast assignLevel e (expr indent e))
  | some (.element e) => "=" ++ element indent e

def contents (indent : Nat) : List JsxContent → String
  | [] => ""
  | .text text :: rest => text ++ contents indent rest
  | .expr e :: rest => braces (expr indent e) ++ contents indent rest
  | .element e :: rest => element indent e ++ contents indent rest

end

end Printer

/-- The text of a whole module. -/
def Module.print (m : Module) : String := Printer.stmts 0 m.body

end TsxPreview
