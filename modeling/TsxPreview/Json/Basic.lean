import TsxPreview.Number.Notation
import TsxPreview.Record

/-!
Data text: its values and their written form, compact or indented; and reading structures from data.
A structure is written as an object with its fields by name or as an array of its fields in order.
-/

namespace TsxPreview

/-- Whole numbers keep their own form: only they are written without a point. -/
inductive Json where
  | null
  | bool (value : Bool)
  | integer (value : Int)
  | number (value : Float)
  | string (value : String)
  | array (items : List Json)
  /-- Members in order; the readers keep names distinct. -/
  | object (members : List (String × Json))
  deriving Inhabited

namespace Json

def lowerHex (n : Nat) : Char :=
  if n < 10 then Char.ofNat (48 + n) else Char.ofNat (87 + n)

/-- One character between quotes. -/
def escapeChar (c : Char) : List Char :=
  if c = '"' then ['\\', '"']
  else if c = '\\' then ['\\', '\\']
  else if c = '\n' then ['\\', 'n']
  else if c = '\r' then ['\\', 'r']
  else if c = '\t' then ['\\', 't']
  else if c = '\x08' then ['\\', 'b']
  else if c = '\x0c' then ['\\', 'f']
  else if c.toNat < 0x20 then
    ['\\', 'u', '0', '0', lowerHex (c.toNat / 16), lowerHex (c.toNat % 16)]
  else [c]

def quote (s : String) : String := "\"" ++ String.ofList (s.toList.flatMap escapeChar) ++ "\""

/-- Opening and closing brace. -/
def openBrace : String := "\x7b"

def closeBrace : String := "\x7d"

mutual

/-- The text without any white space. -/
def compact : Json → String
  | null => "null"
  | bool b => if b then "true" else "false"
  | integer n => toString n
  | number x => Style.json.format x
  | string s => quote s
  | array items => "[" ++ compactItems items ++ "]"
  | object members => openBrace ++ compactMembers members ++ closeBrace

def compactItems : List Json → String
  | [] => ""
  | [x] => compact x
  | x :: rest => compact x ++ "," ++ compactItems rest

def compactMembers : List (String × Json) → String
  | [] => ""
  | [(k, x)] => quote k ++ ":" ++ compact x
  | (k, x) :: rest => quote k ++ ":" ++ compact x ++ "," ++ compactMembers rest

end

mutual

/-- One item or member a line, `unit` for each level; `margin` is the indentation reached. -/
def indented (unit margin : String) : Json → String
  | array [] => "[]"
  | array items =>
    "[\n" ++ indentedItems unit (margin ++ unit) items ++ "\n" ++ margin ++ "]"
  | object [] => openBrace ++ closeBrace
  | object members =>
    openBrace ++ "\n" ++ indentedMembers unit (margin ++ unit) members ++ "\n" ++ margin
      ++ closeBrace
  | null => "null"
  | bool b => if b then "true" else "false"
  | integer n => toString n
  | number x => Style.json.format x
  | string s => quote s

def indentedItems (unit margin : String) : List Json → String
  | [] => ""
  | [x] => margin ++ indented unit margin x
  | x :: rest => margin ++ indented unit margin x ++ ",\n" ++ indentedItems unit margin rest

def indentedMembers (unit margin : String) : List (String × Json) → String
  | [] => ""
  | [(k, x)] => margin ++ quote k ++ ": " ++ indented unit margin x
  | (k, x) :: rest =>
    margin ++ quote k ++ ": " ++ indented unit margin x ++ ",\n"
      ++ indentedMembers unit margin rest

end

/-! ### Taking values apart -/

def member? (j : Json) (name : String) : Option Json :=
  match j with
  | object members => (members.find? (·.1 == name)).map (·.2)
  | _ => none

def string? : Json → Option String
  | string s => some s
  | _ => none

def bool? : Json → Option Bool
  | bool b => some b
  | _ => none

def array? : Json → Option (List Json)
  | array items => some items
  | _ => none

def object? : Json → Option (List (String × Json))
  | object members => some members
  | _ => none

/-- A whole number that is not negative. -/
def nat? : Json → Option Nat
  | integer n => if 0 ≤ n then some n.toNat else none
  | _ => none

def float? : Json → Option Float
  | integer n => some (Binary64.ofInt n)
  | number x => some x
  | _ => none

def isNull : Json → Bool
  | null => true
  | _ => false

end Json

end TsxPreview

/-! ### Structures -/

namespace TsxPreview.Json

/-- Whether a structure admits names that are no fields of it. -/
inductive Strictness where
  | strict | lenient
  deriving DecidableEq

/-- The fields that are given. A field may be given once. -/
def fields? (s : Strictness) (names : List String) : Json → Option (List (String × Json))
  | array items => if items.length ≤ names.length then some (names.zip items) else none
  | object members =>
    let known := members.filter fun (name, _) => names.contains name
    if (s = .strict ∧ known.length ≠ members.length) ∨ ¬ (known.map (·.1)).Nodup then none
    else some known
  | _ => none

/-- An absent field takes its default. -/
def fieldOr {α : Type} (fallback : α) (read : Json → Option α) (fields : List (String × Json))
    (name : String) : Option α :=
  match fields.lookup name with
  | some j => read j
  | none => some fallback

/-- A natural number below `2 ^ 64`. -/
def word? (j : Json) : Option Nat := j.nat?.filter (· < Nat.pow 2 64)

def strings? (j : Json) : Option (List String) := j.array?.bind fun items => items.mapM string?

/-- `null` or a value. -/
def nullable? {α : Type} (read : Json → Option α) : Json → Option (Option α)
  | null => some none
  | j => (read j).map some

end TsxPreview.Json
