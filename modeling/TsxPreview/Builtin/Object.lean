import TsxPreview.Json.Reader
import TsxPreview.Script.Evaluator

/-!
`Object`, error objects, the console, and `JSON`.
-/

namespace TsxPreview.ObjectFunction

/-- Copies the entries of each source into a target. -/
def assignAll (target : Value) : List Value → Script Unit
  | [] => pure ()
  | source :: rest => do
    for (name, v) in ← Script.ownEntries source do Script.setProperty target name v
    assignAll target rest

/-- A record of pairs of name and value. -/
def ofPairs : List Value → Record Value → Script (Record Value)
  | [], out => pure out
  | entry :: rest, out => do
    let name ← Script.getProperty entry "0"
    let v ← Script.getProperty entry "1"
    let name ← Script.onHeap name.key
    ofPairs rest (out.insert name v)

def run (f : ObjectFunction) (args : List Value) : Script Value := do
  let first := argument args 0
  match f with
  | keys => Alloc.ofList ((← Script.ownEntries first).map fun (name, _) => .string name)
  | values => Alloc.ofList ((← Script.ownEntries first).map (·.2))
  | entries =>
    let pairs ← (← Script.ownEntries first).mapM fun (name, v) =>
      (Alloc.ofList [.string name, v] : Script Value)
    Alloc.ofList pairs
  | assign =>
    assignAll first args.tail
    return first
  | fromEntries => Alloc.object (← ofPairs (← Script.iterate first) .empty)
  | freeze => return first
  | is => return .bool (first.is (argument args 1))

/-- `Object(v)`: objects and arrays stay, all else is an empty object. -/
def convert (v : Value) : Script Value :=
  match v with
  | .object _ | .array _ => pure v
  | _ => Alloc.object .empty

end TsxPreview.ObjectFunction

namespace TsxPreview

/-- An error object. -/
def ErrorName.make (name : ErrorName) (args : List Value) : Script Value := do
  let message ← match argument args 0 with
    | .undefined => pure ""
    | v => Script.textOf v
  Alloc.members [("name", .string name.name), ("message", .string message)]

/-- One line of the console. -/
def ConsoleLevel.write (level : ConsoleLevel) (args : List Value) : Script Value := do
  let line ← Script.onHeap fun h => String.intercalate " " (args.map (·.inspect h))
  Script.log level line
  return .undefined

end TsxPreview

/-! ### Data text -/

namespace TsxPreview.JsonFunction

/-- What one level is indented by: up to ten spaces, or the first ten characters of a text. -/
def indentation : Value → String
  | .number x =>
    if 1 <= x then String.ofList (List.replicate (Binary64.toNatBelow 11 x) ' ') else ""
  | .string s => String.ofList (s.toList.take 10)
  | _ => ""

/-- The text of the first argument, laid out as the third says. -/
def written (h : Heap) (args : List Value) : Value :=
  match (argument args 0).json? h with
  | none => .undefined
  | some j =>
    let unit := indentation (argument args 2)
    .string (if unit.isEmpty then j.compact else j.indented unit "")

/-- An error of the syntax of data. -/
def syntaxError (e : Json.ReadError) : Script Value := do
  let message := s!"Unexpected token in JSON at line {e.line} column {e.column}"
  throw (.thrown (← Alloc.members
    [("name", .string ErrorName.syntaxError.name), ("message", .string message)]))

def parseText (text : String) : Script Value :=
  match Json.parse text with
  | .ok j => Alloc.ofJson j
  | .error e => syntaxError e

def run (f : JsonFunction) (args : List Value) : Script Value :=
  match f with
  | stringify => Script.onHeap fun h => written h args
  | parse => do parseText (← Script.textOf (argument args 0))

end TsxPreview.JsonFunction
