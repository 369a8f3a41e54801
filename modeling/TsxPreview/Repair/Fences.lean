import TsxPreview.Text.Basic
import TsxPreview.Text.Word

/-!
Markdown fences, and the lines that only name a language.
-/

namespace TsxPreview.Repair

namespace Fences

def isInfoChar (c : Char) : Bool := isWordChar c || c == '+' || c == '#' || c == '.' || c == '-'

/-- Three backticks or tildes with at most a language behind them. -/
def isFence (line : List Char) : Bool :=
  match trimBlankStart line with
  | '`' :: '`' :: '`' :: rest | '~' :: '~' :: '~' :: rest => (rest.dropWhile isInfoChar).all isBlank
  | _ => false

def languages : List String :=
  ["tsx", "jsx", "ts", "js", "typescript", "javascript", "react", "typescriptreact",
    "javascriptreact"]

def isLanguage (line : List Char) : Bool :=
  languages.contains (String.ofList ((trimBlank line).map Char.toLower))

/-- The lines that stay. A language is dropped right after a fence or before any code. -/
def keep (afterFence seenCode : Bool) : List (List Char) → List (List Char)
  | [] => []
  | line :: rest =>
    if isFence line then keep true seenCode rest
    else if isLanguage line && (afterFence || !seenCode) then keep afterFence seenCode rest
    else if line.all isBlank then line :: keep afterFence seenCode rest
    else line :: keep false true rest

end Fences

/-- The text without fences; `none` if there is nothing to remove. -/
def stripFences (text : String) : Option String :=
  let lines := splitInclusive text.toList
  let kept := Fences.keep false false lines
  if kept.length = lines.length then none else some (String.ofList kept.flatten)

end TsxPreview.Repair
