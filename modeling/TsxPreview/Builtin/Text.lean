import TsxPreview.Builtin.Array
import TsxPreview.Number.Notation
import TsxPreview.Number.Text
import TsxPreview.Text.LetterCase
import TsxPreview.Text.Basic

/-!
Methods of strings and numbers, and the functions that read numbers. Places in strings count
characters.
-/

namespace TsxPreview

namespace TextMethod

variable (ev : Evaluator)

def textOfChars (cs : List Char) : Value := .string (String.ofList cs)

/-- The characters from a place up to another; what lies outside the text is moved to its ends. -/
def cut (cs : List Char) (start stop : Nat) : Script Value := do
  let start := min start cs.length
  let stop := min (max stop start) cs.length
  Script.checkSlice start stop cs.length
  return textOfChars ((cs.take stop).drop start)

/-- A place in a text found by searching. -/
def placeValue (place : Option Nat) : Value := (place.map Value.ofNat).getD (.number (-1))

/-- The pieces of a text; without a separator there is one. -/
def pieces (h : Heap) (cs : List Char) (separator : Value) : List Value :=
  match separator with
  | .undefined => [textOfChars cs]
  | v =>
    match (v.text h).toList with
    | [] => cs.map fun c => .string (String.singleton c)
    | separator => (Search.split separator cs).map textOfChars

def limited (h : Heap) (limit : Value) (list : List Value) : List Value :=
  match limit with
  | .undefined => list
  | v => list.take (min (Binary64.toIndex (v.toInteger h)) list.length)

/-- A bound of `substring`: what lies outside the text is moved to its ends. -/
def bound (h : Heap) (length fallback : Nat) (v : Value) : Nat :=
  match v with
  | .undefined => fallback
  | v => min (Binary64.toIndex (v.toInteger h)) length

/-- What replaces an occurrence: a call's answer, or a text in which `$&` stands for it. -/
def replacement (pattern : List Char) (v : Value) : Script (List Char) := do
  if v.isCallable then
    let answer ← ev.apply v [textOfChars pattern]
    return (← Script.textOf answer).toList
  else return Search.replaceAll ['$', '&'] pattern (← Script.textOf v).toList

def replaceFirst (pattern cs : List Char) (v : Value) : Script Value := do
  match Search.find? pattern cs with
  | none => return textOfChars cs
  | some i =>
    let piece ← replacement ev pattern v
    return textOfChars (cs.take i ++ piece ++ cs.drop (i + pattern.length))

/-- Replaces the occurrences between the given stretches. -/
def replaceBetween (pattern : List Char) (v : Value) :
    List (List Char) → List Char → Script (List Char)
  | [], out => pure out
  | [last], out => pure (out ++ last)
  | stretch :: rest, out => do
    let piece ← replacement ev pattern v
    replaceBetween pattern v rest (out ++ stretch ++ piece)

/-- What fills a text up to a length. -/
def padding (filler : List Char) (count : Nat) : List Char :=
  ((List.replicate (count / filler.length + 1) filler).flatten).take count

def pad (s : String) (atStart : Bool) (args : List Value) : Script Value := do
  let target ← Script.textLength (← Script.integerOf (argument args 0))
  let filler ← match argument args 1 with
    | .undefined => pure " "
    | v => Script.textOf v
  if target ≤ s.length || filler.isEmpty then return .string s
  let fill := String.ofList (padding filler.toList (target - s.length))
  return .string (if atStart then fill ++ s else s ++ fill)

def repeated (s : String) (args : List Value) : Script Value := do
  let count ← Script.integerOf (argument args 0)
  if count < 0 || count.isInf then Script.rangeError (.repeatCount (formatNumber count))
  let total ← Script.textLength (count * Binary64.ofNat s.length)
  if total = 0 then return .string ""
  return .string (String.join (List.replicate (Binary64.toIndex count) s))

def run (s : String) (m : TextMethod) (args : List Value) : Script Value := do
  let cs := s.toList
  let first := argument args 0
  match m with
  | toUpperCase => return .string (TsxPreview.toUpperCase s)
  | toLowerCase => return .string (TsxPreview.toLowerCase s)
  | trim => return textOfChars (trimBlank cs)
  | trimStart => return textOfChars (trimBlankStart cs)
  | trimEnd => return textOfChars (trimBlankEnd cs)
  | toText => return .string s
  | concat => Script.onHeap fun h => .string (args.foldl (fun out v => out ++ v.text h) s)
  | split =>
    let list ← Script.onHeap fun h => limited h (argument args 1) (pieces h cs first)
    Alloc.ofList list
  | includes =>
    let needle ← Script.textOf first
    return .bool (Search.find? needle.toList cs).isSome
  | startsWith =>
    let needle ← Script.textOf first
    return .bool (needle.toList.isPrefixOf cs)
  | endsWith =>
    let needle ← Script.textOf first
    return .bool (needle.toList.isSuffixOf cs)
  | indexOf =>
    let needle ← Script.textOf first
    return placeValue (Search.find? needle.toList cs)
  | lastIndexOf =>
    let needle ← Script.textOf first
    return placeValue (Search.findLast? needle.toList cs)
  | slice =>
    let (start, stop) ← Script.onHeap fun h => sliceRange h cs.length first (argument args 1)
    cut cs start stop
  | substring =>
    let a ← Script.onHeap fun h => bound h cs.length 0 first
    let b ← Script.onHeap fun h => bound h cs.length cs.length (argument args 1)
    cut cs (min a b) (max a b)
  | charAt =>
    let x ← Script.integerOf first
    if x < 0 then return .string ""
    let i := Binary64.toIndex x
    cut cs i (← Script.addIndex i 1)
  | atIndex =>
    let x ← Script.integerOf first
    return (((placeOf? cs.length x).bind (cs[·]?)).map
      fun c => Value.string (String.singleton c)).getD .undefined
  | charCodeAt =>
    let x ← Script.integerOf first
    if x < 0 then return .number Binary64.nan
    return (cs[Binary64.toIndex x]?.map fun c => Value.ofNat c.toNat).getD (.number Binary64.nan)
  | replace =>
    let pattern ← Script.textOf first
    replaceFirst ev pattern.toList cs (argument args 1)
  | replaceAll =>
    let pattern ← Script.textOf first
    if pattern.isEmpty then replaceFirst ev [] cs (argument args 1)
    else
      let stretches := Search.split pattern.toList cs
      return textOfChars (← replaceBetween ev pattern.toList (argument args 1) stretches [])
  | padStart => pad s true args
  | padEnd => pad s false args
  | .repeat => repeated s args
  | localeCompare =>
    let other ← Script.textOf first
    return .number (match compare s other with
      | .lt => -1
      | .eq => 0
      | .gt => 1)

end TextMethod

namespace NumberMethod

def run (x : Float) (m : NumberMethod) (args : List Value) : Script Value := do
  match m with
  | toFixed =>
    let digits ← Script.integerOf (argument args 0)
    if 0 <= digits && digits <= 100 then
      return .string (Fixed.format (Binary64.toIndex digits) x)
    else Script.rangeError .fixedDigits
  | toText =>
    match argument args 0 with
    | .undefined => return .string (formatNumber x)
    | v =>
      let radix ← Script.integerOf v
      return .string (Fixed.inRadix (Binary64.toNatBelow (Nat.pow 2 32) radix) x)
  | toLocaleString => return .string (Fixed.locale x)
  | valueOf => return .number x

end NumberMethod

namespace NumberFunction

/-- A number as it is; other values count as not-a-number. -/
def numberOnly (p : Float → Bool) : Value → Value
  | .number x => .bool (p x)
  | _ => .bool false

def run (f : NumberFunction) (args : List Value) : Script Value := do
  let first := argument args 0
  match f with
  | isInteger => return numberOnly (fun x => (Binary64.toInt? x).isSome) first
  | isFinite => return numberOnly (fun x => !x.isNaN && !x.isInf) first
  | isNaN => return numberOnly Float.isNaN first
  | parseFloat => return .number (Leading.decimal (← Script.textOf first).toList)

def constants : List (String × Value) :=
  [("MAX_SAFE_INTEGER", .number 9007199254740991),
    ("EPSILON", .number (Binary64.ofRatio 1 (Nat.pow 2 52)))]

end NumberFunction

end TsxPreview
