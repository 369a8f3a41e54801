import TsxPreview.Source.File
import TsxPreview.Number.Notation

/-!
The tokens of the TSX subset: reserved words, punctuators, literals, and the markup tokens that only
occur in or between tags.
-/

namespace TsxPreview

/-- Reserved words. Contextual words (`of`, `from`, `as`, `type`, …) are identifiers. -/
inductive Keyword where
  | const | «let» | var | function | «class»
  | «if» | «else» | «for» | «while» | «do» | «break» | «continue» | «return» | throw | «try»
  | «catch» | «finally» | switch | case
  | «import» | «export» | default
  | new | typeof | void | delete | «in» | instanceof
  | true | false | null | this
  | enum | «extends» | super | yield
  deriving DecidableEq, Inhabited

namespace Keyword

def text : Keyword → String
  | const => "const" | «let» => "let" | var => "var" | function => "function" | «class» => "class"
  | «if» => "if" | «else» => "else" | «for» => "for" | «while» => "while" | «do» => "do"
  | «break» => "break" | «continue» => "continue" | «return» => "return" | throw => "throw"
  | «try» => "try" | «catch» => "catch" | «finally» => "finally" | switch => "switch"
  | case => "case" | «import» => "import" | «export» => "export" | default => "default"
  | new => "new" | typeof => "typeof" | void => "void" | delete => "delete" | «in» => "in"
  | instanceof => "instanceof" | true => "true" | false => "false" | null => "null"
  | this => "this" | enum => "enum" | «extends» => "extends" | super => "super" | yield => "yield"

def all : List Keyword :=
  [const, «let», var, function, «class», «if», «else», «for», «while», «do», «break», «continue»,
    «return», throw, «try», «catch», «finally», switch, case, «import», «export», default, new,
    typeof, void, delete, «in», instanceof, true, false, null, this, enum, «extends», super, yield]

def ofText? (s : String) : Option Keyword := all.find? (·.text == s)

/-- The words that open a declaration. -/
def isDeclaration (k : Keyword) : Bool := k == const || k == «let» || k == var || k == function

end Keyword

inductive Punct where
  | plus | minus | star | starStar | slash | percent | plusPlus | minusMinus
  | eq | eqEq | eqEqEq | bangEq | bangEqEq | bang
  | less | lessEq | greater | greaterEq
  | ampAmp | pipePipe | amp | pipe | question | questionQuestion | questionDot
  | plusEq | minusEq | starEq | slashEq | percentEq | ampAmpEq | pipePipeEq | questionQuestionEq
  | arrow
  | lParen | rParen | lBrace | rBrace | lBracket | rBracket
  | comma | semicolon | colon | dot | dotDotDot
  | jsxLt | jsxCloseStart | jsxSelfClose
  deriving DecidableEq, Inhabited

namespace Punct

def text : Punct → String
  | plus => "+" | minus => "-" | star => "*" | starStar => "**" | slash => "/" | percent => "%"
  | plusPlus => "++" | minusMinus => "--" | eq => "=" | eqEq => "==" | eqEqEq => "==="
  | bangEq => "!=" | bangEqEq => "!==" | bang => "!" | less => "<" | lessEq => "<="
  | greater => ">" | greaterEq => ">=" | ampAmp => "&&" | pipePipe => "||" | amp => "&"
  | pipe => "|" | question => "?" | questionQuestion => "??" | questionDot => "?."
  | plusEq => "+=" | minusEq => "-=" | starEq => "*=" | slashEq => "/=" | percentEq => "%="
  | ampAmpEq => "&&=" | pipePipeEq => "||=" | questionQuestionEq => "??=" | arrow => "=>"
  | lParen => "(" | rParen => ")" | lBrace => "\x7b" | rBrace => "\x7d" | lBracket => "["
  | rBracket => "]" | comma => "," | semicolon => ";" | colon => ":" | dot => "."
  | dotDotDot => "..." | jsxLt => "<" | jsxCloseStart => "</" | jsxSelfClose => "/>"

/-- The name under which listings show a punctuator. -/
def name : Punct → String
  | plus => "Plus" | minus => "Minus" | star => "Star" | starStar => "StarStar" | slash => "Slash"
  | percent => "Percent" | plusPlus => "PlusPlus" | minusMinus => "MinusMinus" | eq => "Eq"
  | eqEq => "EqEq" | eqEqEq => "EqEqEq" | bangEq => "BangEq" | bangEqEq => "BangEqEq"
  | bang => "Bang" | less => "Less" | lessEq => "LessEq" | greater => "Greater"
  | greaterEq => "GreaterEq" | ampAmp => "AmpAmp" | pipePipe => "PipePipe" | amp => "Amp"
  | pipe => "Pipe" | question => "Question" | questionQuestion => "QuestionQuestion"
  | questionDot => "QuestionDot" | plusEq => "PlusEq" | minusEq => "MinusEq" | starEq => "StarEq"
  | slashEq => "SlashEq" | percentEq => "PercentEq" | ampAmpEq => "AmpAmpEq"
  | pipePipeEq => "PipePipeEq" | questionQuestionEq => "QuestionQuestionEq" | arrow => "Arrow"
  | lParen => "LParen" | rParen => "RParen" | lBrace => "LBrace" | rBrace => "RBrace"
  | lBracket => "LBracket" | rBracket => "RBracket" | comma => "Comma" | semicolon => "Semicolon"
  | colon => "Colon" | dot => "Dot" | dotDotDot => "DotDotDot" | jsxLt => "JsxLt"
  | jsxCloseStart => "JsxCloseStart" | jsxSelfClose => "JsxSelfClose"

end Punct

inductive TokenKind where
  | number (value : Float)
  /-- Escapes are resolved, except inside a tag, where the text is raw. -/
  | string (value : String)
  /-- A template without substitutions. -/
  | templateWhole (text : String)
  /-- Template text before the first substitution. -/
  | templateHead (text : String)
  | templateMiddle (text : String)
  /-- Template text after the last substitution. -/
  | templateTail (text : String)
  | identifier (name : String)
  | keyword (word : Keyword)
  | punct (mark : Punct)
  /-- Raw text between tags. -/
  | jsxText (text : String)
  | eof
  deriving Inhabited

structure Token where
  kind : TokenKind
  span : Span
  /-- A line break separates the token from the one before. -/
  newlineBefore : Bool
  deriving Inhabited

namespace TokenKind

def isPunct (p : Punct) : TokenKind → Bool
  | punct q => q == p
  | _ => false

def isKeyword (k : Keyword) : TokenKind → Bool
  | keyword w => w == k
  | _ => false

def isEof : TokenKind → Bool
  | eof => true
  | _ => false

def isIdentifier : TokenKind → Bool
  | identifier _ => true
  | _ => false

/-- An identifier with this very name. -/
def isWord (name : String) : TokenKind → Bool
  | identifier n => n == name
  | _ => false

def isDeclarationKeyword : TokenKind → Bool
  | keyword k => k.isDeclaration
  | _ => false

/-- After such a token a `<` compares; after any other it opens a tag. -/
def endsExpression : TokenKind → Bool
  | number _ | string _ | templateWhole _ | templateTail _ | identifier _ => true
  | keyword k => k == .true || k == .false || k == .null || k == .this
  | punct p => p == .rParen || p == .rBracket || p == .plusPlus || p == .minusMinus
  | _ => false

/-- The text of a token that can stand as a property name: an identifier or any reserved word. -/
def propertyName? : TokenKind → Option String
  | identifier name => some name
  | keyword k => some k.text
  | _ => none

/-- How messages show the token. -/
def display : TokenKind → String
  | number v => Style.plain.format v
  | string s => "\"" ++ s ++ "\""
  | templateWhole s => "`" ++ s ++ "`"
  | templateHead s => "`" ++ s ++ "$\x7b"
  | templateMiddle s => "\x7d" ++ s ++ "$\x7b"
  | templateTail s => "\x7d" ++ s ++ "`"
  | identifier name => name
  | keyword k => k.text
  | punct p => p.text
  | jsxText text => text
  | eof => "end of file"

end TokenKind

end TsxPreview
