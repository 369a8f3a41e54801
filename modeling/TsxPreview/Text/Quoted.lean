import TsxPreview.Text.Printable

/-!
Texts as they are written down: between double quotes as program text spells them, as listings show
them with what cannot be seen spelt out, and in markup, where what could end its context is replaced
by a reference.
-/

namespace TsxPreview.Quoted

def hexDigit (n : Nat) : Char := if n < 10 then Char.ofNat (48 + n) else Char.ofNat (87 + n)

/-- One character between quotes. -/
def escape (c : Char) : List Char :=
  if c = '"' then ['\\', '"']
  else if c = '\\' then ['\\', '\\']
  else if c = '\n' then ['\\', 'n']
  else if c = '\r' then ['\\', 'r']
  else if c = '\t' then ['\\', 't']
  else if c.toNat < 0x20 then
    ['\\', 'u', '0', '0', hexDigit (c.toNat / 16), hexDigit (c.toNat % 16)]
  else [c]

def encode (cs : List Char) : List Char := '"' :: (cs.flatMap escape ++ ['"'])

/-- The text of a template between its backticks and substitutions. -/
def encodeTemplate : List Char → List Char
  | [] => []
  | '\\' :: rest => '\\' :: '\\' :: encodeTemplate rest
  | '`' :: rest => '\\' :: '`' :: encodeTemplate rest
  | '$' :: '\x7b' :: rest => '\\' :: '$' :: '\x7b' :: encodeTemplate rest
  | c :: rest => c :: encodeTemplate rest

end TsxPreview.Quoted

namespace TsxPreview

/-- A double-quoted literal. -/
def quote (s : String) : String := String.ofList (Quoted.encode s.toList)

end TsxPreview

/-! ### Listings -/

namespace TsxPreview.Shown

def hexDigits (n : Nat) : List Char := Nat.toDigits 16 n

/-- One character between quotes. -/
def escape (c : Char) : List Char :=
  if c = '"' then ['\\', '"']
  else if c = '\\' then ['\\', '\\']
  else if c = '\n' then ['\\', 'n']
  else if c = '\r' then ['\\', 'r']
  else if c = '\t' then ['\\', 't']
  else if c = '\x00' then ['\\', '0']
  else if isPrintable c && !isExtending c then [c]
  else ['\\', 'u', '\x7b'] ++ hexDigits c.toNat ++ ['\x7d']

def encode (cs : List Char) : List Char := '"' :: (cs.flatMap escape ++ ['"'])

end TsxPreview.Shown

namespace TsxPreview

def showQuoted (s : String) : String := String.ofList (Shown.encode s.toList)

end TsxPreview

/-! ### Markup -/

namespace TsxPreview

namespace Escaped

/-- A character between tags. -/
def textChar : Char → List Char
  | '&' => ['&', 'a', 'm', 'p', ';']
  | '<' => ['&', 'l', 't', ';']
  | '>' => ['&', 'g', 't', ';']
  | c => [c]

/-- A character of a value in double quotes. -/
def valueChar : Char → List Char
  | '"' => ['&', 'q', 'u', 'o', 't', ';']
  | c => textChar c

end Escaped

/-- Text as it is written between tags. -/
def escapeText (text : String) : String := String.ofList (text.toList.flatMap Escaped.textChar)

/-- Text as it is written between double quotes. -/
def escapeValue (text : String) : String := String.ofList (text.toList.flatMap Escaped.valueChar)

end TsxPreview
