import TsxPreview.Repair.Census
import TsxPreview.Repair.Imports

/-!
Helper functions that stand beside the main component. Those that only the component uses are moved
to the top of its body, in their order.
-/

namespace TsxPreview.Repair

namespace Helpers

/-- The main component: its chunk and the braces of its body. -/
structure MainBody where
  chunk : Chunk
  openBrace : Nat
  closeBrace : Nat

structure Helper where
  name : String
  chunk : Chunk
  deriving DecidableEq

/-- The name that a chunk declares. -/
def declared? (s : Scan) (c : Chunk) : Option String :=
  if (s.kind c.first).isDeclarationKeyword then s.ident? (c.first + 1) else none

def bodyOf? (s : Scan) (c : Chunk) : Option MainBody := do
  let start ← s.functionBody? c
  return ⟨c, start, ← s.matching? start⟩

/-- The name of `export default Name`. -/
def exportedName? (s : Scan) (c : Chunk) : Option String := do
  let name ← s.ident? (c.first + 2)
  guard (c.last == c.first + 2 || (c.last == c.first + 3 && s.isPunct c.last .semicolon))
  return name

/-- The default export itself, or the declaration that it names. -/
def mainBody? (s : Scan) (chunks : List Chunk) : Option MainBody := do
  let c ← chunks.find? (isDefaultExport s)
  match bodyOf? s c with
  | some body => return body
  | none =>
    let name ← exportedName? s c
    bodyOf? s (← chunks.find? fun c => declared? s c == some name)

/-- An arrow function starts at `i`. -/
def startsArrow (s : Scan) (i : Nat) : Bool :=
  match s.kind i with
  | .punct .lParen => (s.matching? i).any fun close => s.isPunct (close + 1) .arrow
  | .identifier _ => s.isPunct (i + 1) .arrow
  | _ => false

/-- The name of a helper that can be moved: a whole function declaration, or one variable with an
arrow function. -/
def helperName? (s : Scan) (c : Chunk) : Option String := do
  let name ← declared? s c
  if s.isKeyword c.first .function then
    let close ← s.matching? (← s.functionBody? c)
    guard (close == c.last || (close + 1 == c.last && s.isPunct c.last .semicolon))
    return name
  else
    guard (!Scan.anyIn c.first c.last fun i => s.nesting i == 0 && s.isPunct i .comma)
    let eq ← Scan.findIn (c.first + 2) c.last fun i => s.nesting i == 0 && s.isPunct i .eq
    guard (startsArrow s (eq + 1))
    return name

/-- The body already declares the name itself. -/
def declaredInBody (s : Scan) (m : MainBody) (name : String) : Bool :=
  Scan.anyIn (m.openBrace + 1) (m.closeBrace - 1) fun i =>
    s.braceDepth i == s.braceDepth m.openBrace + 1 && (s.kind i).isDeclarationKeyword
      && s.ident? (i + 1) == some name

/-- Chunks beside the main one that are helpers, are used in its body and not declared there. -/
def candidates (s : Scan) (m : MainBody) (chunks : List Chunk) : List Helper :=
  (chunks.filter (· != m.chunk)).filterMap fun c => do
    let name ← helperName? s c
    guard (s.mentions name (m.openBrace + 1) (m.closeBrace - 1))
    guard (!declaredInBody s m name)
    return ⟨name, c⟩

/-- Something that stays at the top level uses the helper. -/
def usedOutside (s : Scan) (m : MainBody) (staying : List Chunk) (h : Helper) : Bool :=
  staying.any (fun c => s.mentions h.name c.first c.last)
    || s.mentions h.name m.chunk.first m.openBrace
    || (m.closeBrace < m.chunk.last && s.mentions h.name (m.closeBrace + 1) m.chunk.last)

def staying (m : MainBody) (chunks : List Chunk) (helpers : List Helper) : List Chunk :=
  chunks.filter fun c => c != m.chunk && helpers.all fun h => h.chunk != c

/-- Leaves out helpers used outside until none is. Each round leaves out one at least. -/
def movable (s : Scan) (m : MainBody) (chunks : List Chunk) : Nat → List Helper → List Helper
  | 0, helpers => helpers
  | fuel + 1, helpers =>
    let kept := helpers.filter fun h => !usedOutside s m (staying m chunks helpers) h
    if kept.length = helpers.length then helpers else movable s m chunks fuel kept

def nested (text : List Char) (s : Scan) (m : MainBody) (helpers : List Helper) : List Char :=
  let range (h : Helper) : Nat × Nat := (s.lo h.chunk.first, s.hi h.chunk.last)
  let moved := helpers.flatMap fun h => '\n' :: sliceBytes (range h).1 (range h).2 text
  let removals := helpers.map fun h => Edit.removeLines text (range h).1 (range h).2
  Edit.applyAll text (removals ++ [Edit.insertAt (s.hi m.openBrace) moved])

end Helpers

/-- Moves helpers into the main component, unless that would lose or gain a declaration. -/
def nestHelpers (text : String) : Revision :=
  let s := Scan.ofText text
  let chunks := s.chunks
  match Helpers.mainBody? s chunks with
  | none => .unchanged
  | some m =>
    let found := Helpers.candidates s m chunks
    let helpers := Helpers.movable s m chunks (found.length + 1) found
    if helpers.isEmpty then .unchanged
    else
      let result := String.ofList (Helpers.nested text.toList s m helpers)
      let names := helpers.map Helpers.Helper.name
      let before := Census.ofScan s
      let after := Census.ofText result
      if after.total = before.total ∧ after.topLevel + names.length = before.topLevel then
        .applied result (.nestedHelpers names)
      else .refused (.helpers before after names)

end TsxPreview.Repair
