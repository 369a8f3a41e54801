import TsxPreview.Script.Evaluator

/-!
`Math`.
-/

namespace TsxPreview.MathFunction

/-- One argument; those of several are answered elsewhere. -/
def applyUnary (f : MathFunction) (x : Float) : Float :=
  match f with
  | abs => x.abs
  | floor => x.floor
  | ceil => x.ceil
  | round => (x + 0.5).floor
  | trunc => Binary64.trunc x
  | sign => if x == 0 || x.isNaN then x else if x < 0 then -1 else 1
  | sqrt => x.sqrt
  | cbrt => Binary64.cubeRoot x
  | exp => x.exp
  | log => x.log
  | log10 => x.log10
  | log2 => x.log2
  | sin => x.sin
  | cos => x.cos
  | tan => x.tan
  | atan => x.atan
  | _ => Binary64.nan

/-- The greatest or least of numbers; not-a-number wins over all, and of equal ones the last. -/
def extreme (better : Float → Float → Bool) (start : Float) (xs : List Float) : Float :=
  xs.foldl (fun acc x =>
    if x.isNaN || acc.isNaN then Binary64.nan else if better acc x then acc else x) start

def run (f : MathFunction) (args : List Value) : Script Value :=
  match f with
  | random => do return .number (← Script.random)
  | max => Script.onHeap fun h =>
    .number (extreme (fun x y => y < x) (-Binary64.infinity) (args.map (Value.toNumber h)))
  | min => Script.onHeap fun h =>
    .number (extreme (fun x y => x < y) Binary64.infinity (args.map (Value.toNumber h)))
  | pow => Script.onHeap fun h =>
    .number (((argument args 0).toNumber h).pow ((argument args 1).toNumber h))
  | atan2 => Script.onHeap fun h =>
    .number (Float.atan2 ((argument args 0).toNumber h) ((argument args 1).toNumber h))
  | hypot => Script.onHeap fun h =>
    .number ((args.map (Value.toNumber h)).foldl (fun sum x => sum + x * x) (-0.0)).sqrt
  | f => Script.onHeap fun h => .number (f.applyUnary ((argument args 0).toNumber h))

def pi : Float := Float.ofBits 0x400921fb54442d18

def e : Float := Float.ofBits 0x4005bf0a8b145769

/-- The members of `Math`. -/
def members : Alloc (List (String × Value)) := do
  let first ← Alloc.natives unary name .math
  let rest ← Alloc.natives others name .math
  return first ++ [("PI", .number pi), ("E", .number e)] ++ rest

end TsxPreview.MathFunction
