import TsxPreview.Repair.Census
import TsxPreview.Repair.Scan

/-!
Type annotations of a few plain shapes: on parameters, on declared names, as return types, and `as`
assertions. A type is a named type with qualification, arguments and `[]`, a literal, or a union of
those; any other is left for the parser to skip.
-/

namespace TsxPreview.Repair

namespace Annotations

def primitives : List String :=
  ["string", "number", "boolean", "any", "unknown", "never", "object", "undefined", "bigint",
    "symbol"]

def isTypeName (name : String) : Bool :=
  name.toList.head?.any (fun c => 'A' ≤ c && c ≤ 'Z') || primitives.contains name

/-- Past the `.Name` parts after the token at `i`. -/
def qualified (s : Scan) : Nat → Nat → Nat
  | 0, i => i
  | fuel + 1, i =>
    if s.isPunct (i + 1) .dot && (s.ident? (i + 2)).isSome then qualified s fuel (i + 2) else i

/-- Past the `[]` after the token at `i`. -/
def arrays (s : Scan) : Nat → Nat → Nat
  | 0, i => i
  | fuel + 1, i =>
    if s.isPunct (i + 1) .lBracket && s.isPunct (i + 2) .rBracket then arrays s fuel (i + 2) else i

/-- The last token of a type without its `[]`. -/
def headEnd? (s : Scan) (i : Nat) : Option Nat :=
  match s.kind i with
  | .identifier name =>
    if isTypeName name then
      let last := qualified s s.size i
      if s.isPunct (last + 1) .less then s.matchingAngle? (last + 1) else some last
    else none
  | .keyword .null | .keyword .void | .keyword .true | .keyword .false | .string _ | .number _ =>
    some i
  | _ => none

def atomEnd? (s : Scan) (i : Nat) : Option Nat := (headEnd? s i).map (arrays s s.size)

/-- Past the other members of a union whose first member ends at `i`. -/
def unionEnd? (s : Scan) : Nat → Nat → Option Nat
  | 0, i => some i
  | fuel + 1, i =>
    if s.isPunct (i + 1) .pipe || s.isPunct (i + 1) .amp then do
      let last ← atomEnd? s (i + 2)
      unionEnd? s fuel last
    else some i

/-- The last token of the type that starts at `i`. -/
def typeEnd? (s : Scan) (i : Nat) : Option Nat := do unionEnd? s s.size (← atomEnd? s i)

/-- The token at `i` stands directly in the parameter list of a function. -/
def inParameters (s : Scan) (i : Nat) : Bool :=
  match s.enclosing? i with
  | none => false
  | some start =>
    s.isPunct start .lParen && (s.matching? start).any fun close =>
      s.isPunct (close + 1) .arrow || s.isPunct (close + 1) .lBrace
        || s.isPunct (close + 1) .colon

def endsParameter (k : TokenKind) : Bool := k.isPunct .comma || k.isPunct .rParen || k.isPunct .eq

/-- A declarator can end after the token at `i`. -/
def endsDeclarator (s : Scan) (i : Nat) : Bool :=
  let next := s.kind (i + 1)
  next.isPunct .eq || next.isPunct .semicolon || next.isPunct .comma || next.isEof
    || s.newlineBefore (i + 1)

def opensParameter (k : TokenKind) : Bool := k.isPunct .lParen || k.isPunct .comma

def declaresVariable (k : TokenKind) : Bool :=
  k.isKeyword .const || k.isKeyword .let || k.isKeyword .var

/-- The name at `i` is a parameter; `none` where a token before it is missing. -/
def isParameter? (s : Scan) (i : Nat) : Option Bool := do
  guard (1 ≤ i)
  if opensParameter (s.kind (i - 1)) then return inParameters s i
  if s.isPunct (i - 1) .dotDotDot then
    guard (2 ≤ i)
    return opensParameter (s.kind (i - 2)) && inParameters s i
  return false

/-- A type that ends at `last` may be dropped from what stands at `target`. -/
def accepted? (s : Scan) (target last : Nat) (optional : Bool) : Option Bool := do
  let next := s.kind (last + 1)
  match s.kind target with
  | .identifier _ =>
    if ← isParameter? s target then return endsParameter next
    else return !optional && declaresVariable (s.kind (target - 1)) && endsDeclarator s last
  | .punct .rBrace | .punct .rBracket =>
    let start ← s.opening? target
    guard (1 ≤ start)
    let before := s.kind (start - 1)
    if opensParameter before then return inParameters s start && endsParameter next
    else return declaresVariable before && !optional && endsDeclarator s last
  | .punct .rParen => return !optional && (next.isPunct .arrow || next.isPunct .lBrace)
  | _ => return false

/-- Drops the annotation that the colon at `i` introduces. -/
def annotation? (s : Scan) (i : Nat) : Option Edit := do
  guard (1 ≤ i)
  let optional := s.isPunct (i - 1) .question
  let back := if optional then 2 else 1
  guard (back ≤ i)
  let last ← typeEnd? s (i + 1)
  guard (← accepted? s (i - back) last optional)
  return Edit.remove (s.lo (if optional then i - 1 else i)) (s.hi last)

/-- Drops the assertion whose `as` is at `i`. -/
def assertion? (s : Scan) (i : Nat) : Option Edit := do
  guard (1 ≤ i)
  let before := s.kind (i - 1)
  guard (!s.newlineBefore i && (before.endsExpression || before.isPunct .rBrace))
  let last ← if s.isKeyword (i + 1) .const then some (i + 1) else typeEnd? s (i + 1)
  return Edit.remove (s.hi (i - 1)) (s.hi last)

/-- An `as` at `i` renames something in an import or export. -/
def renames (s : Scan) (chunks : List Chunk) (i : Nat) : Bool :=
  (Scan.chunkAt? chunks i).any fun c =>
    s.isKeyword c.first .import || (s.isKeyword c.first .export
      && (s.isPunct (c.first + 1) .lBrace || s.isPunct (c.first + 1) .star))

def editAt? (s : Scan) (chunks : List Chunk) (i : Nat) : Option Edit :=
  if s.isPunct i .colon then annotation? s i
  else if s.ident? i == some "as" then if renames s chunks i then none else assertion? s i
  else none

end Annotations

/-- Drops annotations, unless that would change the census. -/
def stripAnnotations (text : String) : Revision :=
  let scan := Scan.ofText text
  let edits := (List.range scan.size).filterMap (Annotations.editAt? scan scan.chunks)
  if edits.isEmpty then .unchanged
  else
    let stripped := String.ofList (Edit.applyAll text.toList edits)
    let before := Census.ofScan scan
    let after := Census.ofText stripped
    if before = after then .applied stripped (.strippedAnnotations edits.length)
    else .refused (.annotations before after)

end TsxPreview.Repair
