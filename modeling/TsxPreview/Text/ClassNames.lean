import TsxPreview.Text.Basic
import TsxPreview.Text.Word

/-!
Merging of class names: of several utilities that set the same thing, the last one counts. A utility
may stand behind variants, as in `hover:p-2`; utilities conflict under the same variants only.
-/

namespace TsxPreview.ClassNames

def displays : List String :=
  ["block", "inline-block", "inline", "flex", "inline-flex", "grid", "inline-grid", "hidden",
    "contents", "table"]

def positions : List String := ["static", "fixed", "absolute", "relative", "sticky"]

def fontWeights : List String :=
  ["thin", "extralight", "light", "normal", "medium", "semibold", "bold", "extrabold", "black"]

def alignments : List String := ["left", "center", "right", "justify"]

def fontSizes : List String := ["xs", "sm", "base", "lg", "xl"]

def shadows : List String := ["sm", "md", "lg", "xl", "2xl", "inner", "none"]

def roundings : List String := ["none", "sm", "md", "lg", "xl", "2xl", "3xl", "full"]

/-- Beginnings after which any value sets the same thing, longer ones before shorter. -/
def beginnings : List String :=
  ["min-w-", "max-w-", "min-h-", "max-h-", "gap-x-", "gap-y-", "space-x-", "space-y-", "px-", "py-",
    "pt-", "pr-", "pb-", "pl-", "mx-", "my-", "mt-", "mr-", "mb-", "ml-", "inset-", "top-",
    "right-", "bottom-", "left-", "grid-cols-", "col-span-", "justify-", "items-", "self-",
    "content-", "leading-", "tracking-", "opacity-", "z-", "gap-", "bg-", "ring-", "outline-",
    "duration-", "ease-", "cursor-", "overflow-", "w-", "h-", "p-", "m-", "size-", "flex-",
    "order-"]

/-- The groups that a group overrides besides itself. -/
def overrides (group : List Char) : List (List Char) :=
  let names : List String := match String.ofList group with
    | "p-" => ["px-", "py-", "pt-", "pr-", "pb-", "pl-"]
    | "px-" => ["pr-", "pl-"]
    | "py-" => ["pt-", "pb-"]
    | "m-" => ["mx-", "my-", "mt-", "mr-", "mb-", "ml-"]
    | "mx-" => ["mr-", "ml-"]
    | "my-" => ["mt-", "mb-"]
    | "inset-" => ["top-", "right-", "bottom-", "left-"]
    | "gap-" => ["gap-x-", "gap-y-"]
    | "size-" => ["w-", "h-"]
    | _ => []
  names.map String.toList

def isAnyOf (list : List String) (cs : List Char) : Bool := list.any fun s => s.toList == cs

/-- What follows a beginning. -/
def after? (beginning : String) (cs : List Char) : Option (List Char) :=
  if beginning.toList.isPrefixOf cs then some (cs.drop beginning.length) else none

/-- A size of text: a name, `xl` after a digit, or a bracketed length that starts with a digit. -/
def isFontSize (cs : List Char) : Bool :=
  isAnyOf fontSizes cs || match cs with
    | '[' :: d :: rest => isAnyDigit d && rest.getLast? == some ']'
    | d :: rest => isAnyDigit d && rest == ['x', 'l']
    | [] => false

/-- Digits after a hyphen, or nothing. -/
def isWidth : List Char → Bool
  | [] => true
  | '-' :: d :: rest => (d :: rest).all isAnyDigit
  | _ => false

/-- The side of a border's width, empty for all sides. -/
def borderSide? (cs : List Char) : Option (List Char) :=
  match cs with
  | '-' :: side :: rest =>
    if "xytrbl".toList.contains side && isWidth rest then some ['-', side]
    else if isWidth cs then some [] else none
  | cs => if isWidth cs then some [] else none

/-- Nothing, or a hyphen and one of the values. -/
def isValueOf (values : List String) : List Char → Bool
  | [] => true
  | '-' :: rest => isAnyOf values rest
  | _ => false

/-- The groups that a table of names or a shape decides. -/
def namedGroup? (cs : List Char) : Option String :=
  if isAnyOf displays cs then some "display"
  else if isAnyOf positions cs then some "position"
  else
    match after? "text-" cs with
    | some rest =>
      some (if isFontSize rest then "font-size"
        else if isAnyOf alignments rest then "text-align" else "text-color")
    | none =>
      match after? "font-" cs with
      | some rest => some (if isAnyOf fontWeights rest then "font-weight" else "font-family")
      | none => none

def borderGroup? (cs : List Char) : Option (List Char) :=
  match after? "border" cs with
  | none => none
  | some rest =>
    match borderSide? rest with
    | some side => some ("border-width".toList ++ side)
    | none => if rest.head? == some '-' then some "border-color".toList else none

def shapeGroup? (cs : List Char) : Option String :=
  if (after? "shadow" cs).any (isValueOf shadows) then some "shadow"
  else if (after? "rounded" cs).any (isValueOf roundings) then some "rounded"
  else beginnings.find? fun b => b.toList.isPrefixOf cs

/-- The group of a utility; a sign in front does not count. -/
def group? (utility : List Char) : Option (List Char) :=
  let cs := match utility with
    | '-' :: rest => rest
    | cs => cs
  (namedGroup? cs).map String.toList <|> borderGroup? cs <|> (shapeGroup? cs).map String.toList

/-- A class taken apart: its variants with their colons, and the utility without a mark of
importance. -/
def takeApart (token : List Char) : List Char × List Char :=
  let utility := (token.reverse.takeWhile (· != ':')).reverse
  let variants := token.take (token.length - utility.length)
  match utility with
  | '!' :: rest => (variants, rest)
  | utility => (variants, utility)

/-- What a class claims for itself, and what it claims besides. -/
def claims (token : List Char) : List Char × List (List Char) :=
  let (variants, utility) := takeApart token
  match group? utility with
  | some group => (variants ++ group, (overrides group).map (variants ++ ·))
  | none => (token, [])

/-- Keeps, from the last class to the first, those whose claim is not taken. -/
def keep : List (List Char) → (taken kept : List (List Char)) → List (List Char)
  | [], _, kept => kept
  | token :: rest, taken, kept =>
    let (claim, others) := claims token
    if taken.contains claim then keep rest taken kept
    else keep rest (claim :: (others ++ taken)) (token :: kept)

/-- Drops the classes that later ones override. -/
def mergeChars (cs : List Char) : List Char :=
  List.intercalate [' '] (keep (blankSeparated cs).reverse [] [])

def merge (classes : String) : String := String.ofList (mergeChars classes.toList)

end TsxPreview.ClassNames
