import TsxPreview.Text.Basic
import TsxPreview.View.Document

/-!
Selectors: alternatives separated by commas, each a tag with marks `#id`, `.class`, `[attribute]`
and `[attribute=value]`. An alternative that is not of this form matches nothing.
-/

namespace TsxPreview

/-- What an element must be to match. -/
structure Compound where
  tag : Option String := none
  id : Option String := none
  classes : List String := []
  attributes : List (String × Option String) := []
  deriving DecidableEq, Inhabited

namespace Compound

/-- The readings of an alternative. -/
inductive Reading where
  | compound (c : Compound)
  /-- Matches nothing. -/
  | refused
  /-- The reading stopped inside the bytes of a character. -/
  | split
  deriving DecidableEq, Inhabited

def startsMark (c : Char) : Bool := c == '#' || c == '.' || c == '['

def isQuote (c : Char) : Bool := c == '"' || c == '\''

/-- Quotes of either kind dropped at both ends. -/
def unquoted (cs : List Char) : List Char :=
  ((cs.dropWhile isQuote).reverse.dropWhile isQuote).reverse

/-- The test between square brackets. -/
def attributeTest (inner : List Char) : String × Option String :=
  let name := String.ofList (trimBlank (inner.takeWhile (· != '=')))
  match inner.dropWhile (· != '=') with
  | _ :: value => (name, some (String.ofList (unquoted (trimBlank value))))
  | [] => (name, none)

/-- What the reading of a mark leaves: the compound with the mark and the text behind it. -/
inductive Advance where
  | on (c : Compound) (rest : List Char)
  | ended (r : Reading)
  deriving DecidableEq, Inhabited

/-- The text up to the next mark, and the rest. -/
def cutName? (cs : List Char) : Option (List Char × List Char) :=
  cutAt? ((findByte? startsMark cs).getD (byteLength cs)) cs

/-- Reads on behind a `[`. -/
def readAttribute (c : Compound) (cs : List Char) : Advance :=
  match findByte? (· == ']') cs with
  | none => .ended .refused
  | some stop =>
    match cutAt? stop cs, cutAt? (stop + 1) cs with
    | some (inner, _), some (_, rest) =>
      .on { c with attributes := c.attributes ++ [attributeTest inner] } rest
    | _, _ => .ended .split

/-- Reads on behind a `#` or `.`. -/
def readName (c : Compound) (mark : Char) (cs : List Char) : Advance :=
  match cutName? cs with
  | none => .ended .split
  | some (name, rest) =>
    let name := String.ofList name
    .on (if mark = '#' then { c with id := some name } else { c with classes := c.classes ++ [name] })
      rest

/-- Reads one mark. The first byte is cut off before the mark is looked at; behind a `]` it need not be
a whole character. -/
def readMark (c : Compound) : List Char → Advance
  | [] => .ended (.compound c)
  | mark :: rest =>
    match cutAt? 1 (mark :: rest) with
    | none => .ended .split
    | some (_, rest) =>
      if mark = '[' then readAttribute c rest
      else if mark = '#' ∨ mark = '.' then readName c mark rest
      else .ended .refused

theorem length_of_cutAt? {n : Nat} {cs a b : List Char} (h : cutAt? n cs = some (a, b)) :
    b.length ≤ cs.length := by
  rw [← (append_of_cutAt? h).1, List.length_append]
  exact Nat.le_add_left _ _

theorem length_of_readAttribute {c d : Compound} {cs rest : List Char}
    (h : readAttribute c cs = .on d rest) : rest.length ≤ cs.length := by
  unfold readAttribute at h
  split at h
  · cases h
  · split at h
    · rename_i cut
      cases h
      exact length_of_cutAt? cut
    · cases h

theorem length_of_readName {c d : Compound} {mark : Char} {cs rest : List Char}
    (h : readName c mark cs = .on d rest) : rest.length ≤ cs.length := by
  unfold readName at h
  split at h
  · cases h
  · rename_i cut
    cases h
    exact length_of_cutAt? cut

theorem length_of_readMark {c d : Compound} {cs rest : List Char}
    (h : readMark c cs = .on d rest) : rest.length < cs.length := by
  cases cs with
  | nil => cases h
  | cons mark behind =>
    unfold readMark at h
    dsimp only at h
    split at h
    · cases h
    · rename_i front behind' cut
      -- one byte is at least one character
      have shorter : behind'.length < (mark :: behind).length := by
        obtain ⟨whole, bytes⟩ := append_of_cutAt? cut
        rw [← whole, List.length_append]
        cases front with
        | nil => cases bytes
        | cons => simp
      split at h
      · exact Nat.lt_of_le_of_lt (length_of_readAttribute h) shorter
      · split at h
        · exact Nat.lt_of_le_of_lt (length_of_readName h) shorter
        · cases h

/-- Reads marks one after another. -/
def readMarks (c : Compound) (cs : List Char) : Reading :=
  match h : readMark c cs with
  | .on c rest =>
    have : rest.length < cs.length := length_of_readMark h
    readMarks c rest
  | .ended r => r
termination_by cs.length

/-- Reads one alternative. -/
def read (cs : List Char) : Reading :=
  match trimBlank cs with
  | [] => .refused
  | cs =>
    match cutName? cs with
    | none => .split
    | some (name, marks) =>
      let tag :=
        if name = [] ∨ name = ['*'] then none else some (String.ofList (name.map Char.toLower))
      readMarks { tag } marks

/-- Whether an element of a document matches. -/
def isMatch (c : Compound) (d : Document) (e : NodeId) : Bool :=
  match d.tag? e with
  | none => false
  | some tag =>
    let classes := blankSeparated ((d.attribute? e "class").getD "").toList
    c.tag.all (· == tag)
      && c.id.all (fun id => d.attribute? e "id" == some id)
      && c.classes.all (fun name => classes.contains name.toList)
      && c.attributes.all fun (name, value) =>
        match value with
        | some value => d.attribute? e name == some value
        | none => d.hasAttribute e name

end Compound

/-- The alternatives that can match. -/
structure Selector where
  compounds : List Compound
  deriving DecidableEq, Inhabited

namespace Selector

/-- The alternatives that are read; nothing if the reading of one stops inside a character. -/
def ofReadings : List Compound.Reading → Option (List Compound)
  | [] => some []
  | .compound c :: rest => (ofReadings rest).map (c :: ·)
  | .refused :: rest => ofReadings rest
  | .split :: _ => none

def alternatives (text : String) : List (List Char) := Search.split [','] text.toList

def ofText? (text : String) : Option Selector :=
  (ofReadings ((alternatives text).map Compound.read)).map Selector.mk

def isMatch (s : Selector) (d : Document) (e : NodeId) : Bool := s.compounds.any (·.isMatch d e)

end Selector

namespace Document

/-- The elements below a node that match, in the order of the document. -/
def selectAll (d : Document) (root : NodeId) (s : Selector) : List NodeId :=
  (d.elementsUnder root).filter (s.isMatch d)

end Document

end TsxPreview
