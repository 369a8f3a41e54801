import TsxPreview.Script.Evaluator
import TsxPreview.Text.ClassNames

/-!
Class names from values: joining, and the choice among variants.
-/

namespace TsxPreview.ClassFunction

/-- The classes that a value names: text and numbers name themselves, lists what their items name,
objects the properties that are true. -/
def classesAt (h : Heap) : Nat → Value → List String
  | _, .string s => if s.isEmpty then [] else [s]
  | _, .number x => if x != 0 && !x.isNaN then [formatNumber x] else []
  | 0, .array _ => []
  | levels + 1, .array r => (h.items r).toList.flatMap (classesAt h levels)
  | _, .object r => (h.members r).entries.filterMap fun (name, flag) =>
    if flag.isTruthy then some name else none
  | _, _ => []

def join (h : Heap) (args : List Value) : String :=
  String.intercalate " " (args.flatMap (classesAt h Heap.levels))

/-! ### Variants -/

/-- The option that is chosen for a variant: the given one, else the default. -/
def chosen (h : Heap) (config props : Value) (name : String) : Value :=
  match props.get h name with
  | .undefined => (config.get h "defaultVariants").get h name
  | v => v

/-- The classes of the chosen options. -/
def optionClasses (h : Heap) (config props : Value) : List Value :=
  match config.get h "variants" with
  | .object r => (h.members r).entries.filterMap fun (name, options) =>
    let choice := chosen h config props name
    if choice.isNullish then none else some (options.get h (choice.text h))
  | _ => []

def isClassName (name : String) : Bool := name == "class" || name == "className"

/-- Whether the conditions of a compound hold: each names an option or a list of them. -/
def isMatch (h : Heap) (config props : Value) (conditions : List (String × Value)) : Bool :=
  conditions.all fun (name, expected) =>
    isClassName name ||
      let actual := chosen h config props name
      match expected with
      | .array r => (h.items r).any fun o => o.strictEq actual
      | expected => expected.strictEq actual

def compoundClasses (h : Heap) (config props : Value) : List Value :=
  match config.get h "compoundVariants" with
  | .array r => (h.items r).toList.flatMap fun compound =>
    match compound with
    | .object c =>
      if isMatch h config props (h.members c).entries then
        [compound.get h "class", compound.get h "className"]
      else []
    | _ => []
  | _ => []

/-- The base, the classes of variants and of compounds, then those of the props. -/
def variantText (h : Heap) (base config props : Value) : String :=
  join h (base :: (optionClasses h config props ++ compoundClasses h config props
    ++ [props.get h "class", props.get h "className"]))

def run (f : ClassFunction) (args : List Value) : Script Value :=
  match f with
  | clsx => Script.onHeap fun h => .string (join h args)
  | twMerge | cn => Script.onHeap fun h => .string (ClassNames.merge (join h args))
  | cva => Alloc.native (.variants (argument args 0) (argument args 1))

end TsxPreview.ClassFunction
