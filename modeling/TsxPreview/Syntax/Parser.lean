import TsxPreview.Syntax.Parser.Statements
import TsxPreview.Token.Lexer

/-!
Source text to syntax trees. The productions are tied together by recursion on fuel, which is
computed from the number of tokens; a text gives a tree exactly when nothing was reported.
-/

namespace TsxPreview

namespace Parser

/-- The readers with fuel for so many steps down into nested constructs. -/
def grammar : Nat → Grammar
  | 0 =>
    { statement := outOfFuel, assignment := outOfFuel, binary := fun _ => outOfFuel
      unary := outOfFuel, newExpr := outOfFuel, pattern := outOfFuel, element := outOfFuel
      type := outOfFuel, postfixType := outOfFuel, primaryType := outOfFuel }
  | fuel + 1 =>
    { statement := fun i s => (grammar fuel).statementBody i s
      assignment := fun i s => (grammar fuel).assignmentBody i s
      binary := fun least i s => (grammar fuel).binaryBody least i s
      unary := fun i s => (grammar fuel).unaryBody i s
      newExpr := fun i s => (grammar fuel).newBody i s
      pattern := fun i s => (grammar fuel).patternBody i s
      element := fun i s => (grammar fuel).elementBody i s
      type := fun i s => (grammar fuel).typeBody i s
      postfixType := fun i s => (grammar fuel).postfixTypeBody i s
      primaryType := fun i s => (grammar fuel).primaryTypeBody i s }

/-- Enough for any nesting: between two tokens only a bounded chain of readers is entered. -/
def fuelFor (tokens : Array Token) : Nat := 16 * (tokens.size + 2)

def State.initial : State :=
  { pos := 0, found := .empty, depth := 0, noIn := false, defaultExport := none }

def parseTokens (i : Input) : Outcome Module :=
  (grammar (fuelFor i.tokens)).module i State.initial

end Parser

/-- What reading a file gives: its tree, or what is wrong with it. -/
structure Parsed where
  module? : Option Module
  diagnostics : Diagnostics

/-- Reads a file. What the lexer found comes before what the parser found. -/
def Parsed.ofFile (file : SourceFile) : Parsed :=
  let stream := TokenStream.ofFile file
  let lexed := stream.diagnostics
  let (tree, found) := match Parser.parseTokens ⟨file, stream.tokens.toArray⟩ with
    | .parsed tree s => (some tree, s.found)
    | .failed s => (none, s.found)
    | .exhausted s => (none, s.found)
  { module? := if found.hasErrors || lexed.hasErrors then none else tree
    diagnostics := lexed.extend found }

end TsxPreview
