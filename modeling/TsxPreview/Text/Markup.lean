import TsxPreview.Number.Read
import TsxPreview.Text.Basic

/-!
The text of markup: character references, and the white space around line breaks.
-/

namespace TsxPreview

namespace CharacterReference

/-- References by name. -/
def named : List (String × Char) :=
  [("amp", '&'), ("lt", '<'), ("gt", '>'), ("quot", '"'), ("apos", '\''), ("nbsp", '\u00a0'),
    ("copy", '©'), ("reg", '®'), ("trade", '™'), ("hellip", '…'), ("mdash", '—'), ("ndash", '–'),
    ("middot", '·'), ("times", '×'), ("rarr", '→'), ("larr", '←'), ("bull", '•')]

/-- A code point that is no surrogate. -/
def scalar? (n : Nat) : Option Char := if n.isValidChar then some (Char.ofNat n) else none

/-- Digits, which may follow a plus sign. -/
def readCode (radix : Nat) : List Char → Option Nat
  | '+' :: digits => readRadix radix digits
  | digits => readRadix radix digits

/-- The character that the text between `&` and `;` stands for. -/
def decode? : List Char → Option Char
  | '#' :: 'x' :: digits | '#' :: 'X' :: digits => (readCode 16 digits).bind scalar?
  | '#' :: digits => (readCode 10 digits).bind scalar?
  | name => named.lookup (String.ofList name)

/-- The most bytes from the `&` to the `;`. -/
def reach : Nat := 10

/-- A reference at the head of what follows a `&`: its character, and the text after it. -/
def take? (cs : List Char) : Option (Char × List Char) :=
  let name := cs.takeWhile (· != ';')
  match cs.dropWhile (· != ';') with
  | ';' :: rest =>
    if byteLength name + 1 ≤ reach then (decode? name).map fun c => (c, rest) else none
  | _ => none

theorem take?_shorter {cs rest : List Char} {c : Char} (h : take? cs = some (c, rest)) :
    rest.length < cs.length := by
  have shorter : (cs.dropWhile (· != ';')).length ≤ cs.length :=
    (List.dropWhile_sublist _).length_le
  unfold take? at h
  dsimp only at h
  split at h
  · next tail eq =>
    rw [eq, List.length_cons] at shorter
    split at h
    · obtain ⟨_, _, same⟩ := Option.map_eq_some_iff.1 h
      cases same
      omega
    · cases h
  · cases h

/-- The text with its references decoded. An `&` that starts none stands for itself. -/
def decodeAll (cs : List Char) : List Char :=
  match cs with
  | [] => []
  | c :: rest =>
    if c = '&' then
      match _h : take? rest with
      | some (decoded, after) => decoded :: decodeAll after
      | none => c :: decodeAll rest
    else c :: decodeAll rest
termination_by cs.length
decreasing_by
  · have := take?_shorter _h
    simp only [List.length_cons]
    omega
  · simp
  · simp

end CharacterReference

/-- A text with its character references decoded. -/
def decodeEntities (text : String) : String :=
  String.ofList (CharacterReference.decodeAll text.toList)

namespace MarkupText

def isSpace (c : Char) : Bool := c == ' ' || c == '\t'

def trimEnd (p : Char → Bool) (line : List Char) : List Char := (line.reverse.dropWhile p).reverse

def trimStart (p : Char → Bool) (line : List Char) : List Char := line.dropWhile p

/-- The stretches between line feeds, without carriage returns at their ends. -/
def lines : List Char → List (List Char)
  | cs => (splitOnFeed cs).map (trimEnd (· == '\r'))
where
  splitOnFeed : List Char → List (List Char)
    | [] => [[]]
    | c :: rest =>
      if c = '\n' then [] :: splitOnFeed rest
      else match splitOnFeed rest with
        | [] => [[c]]
        | line :: more => (c :: line) :: more

/-- A line without the spaces beside the line breaks around it; tabs become spaces. -/
def trimmed (count i : Nat) (line : List Char) : List Char :=
  let line := line.map fun c => if c = '\t' then ' ' else c
  let line := if i = 0 then line else trimStart (· == ' ') line
  if i + 1 = count then line else trimEnd (· == ' ') line

/-- The last line with more than spaces, or the first line. -/
def lastFilled (lines : List (List Char)) : Nat :=
  ((lines.zipIdx.filter fun (line, _) => line.any fun c => !isSpace c).getLast?.map (·.2)).getD 0

/-- Each line that is not blank, with a space after all but the last of them. -/
def joined (lines : List (List Char)) : List Char :=
  lines.zipIdx.flatMap fun (line, i) =>
    let line := trimmed lines.length i line
    if line.isEmpty then [] else if i = lastFilled lines then line else line ++ [' ']

end MarkupText

/-- The text that raw text between tags stands for, if any. -/
def markupText? (raw : String) : Option String :=
  let text := MarkupText.joined (MarkupText.lines raw.toList)
  if text.isEmpty then none else some (decodeEntities (String.ofList text))

end TsxPreview
