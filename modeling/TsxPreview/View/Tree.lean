import TsxPreview.Source.Wire
import TsxPreview.Text.Quoted

/-!
Document trees on their own, without identities or listeners, and how they are written.
-/

namespace TsxPreview

/-- Attributes are sorted by name. -/
inductive Tree where
  | element (tag : String) (attributes : List (String × String)) (children : List Tree)
  | text (content : String)
  deriving Inhabited

namespace Tree

/-- Elements that are written without an end tag, whatever they hold. -/
def voidTags : List String :=
  ["area", "base", "br", "col", "embed", "hr", "img", "input", "link", "meta", "source", "track",
    "wbr"]

/-- An attribute with an empty value is written as its name. -/
def attributeHtml (name value : String) : String :=
  if value.isEmpty then " " ++ name else " " ++ name ++ "=\"" ++ escapeValue value ++ "\""

def startTag (tag : String) (attributes : List (String × String)) : String :=
  "<" ++ tag ++ String.join (attributes.map fun (name, value) => attributeHtml name value) ++ ">"

mutual

def html : Tree → String
  | element tag attributes children =>
    if voidTags.contains tag then startTag tag attributes
    else startTag tag attributes ++ htmlAll children ++ "</" ++ tag ++ ">"
  | text content => escapeText content

def htmlAll : List Tree → String
  | [] => ""
  | t :: rest => t.html ++ htmlAll rest

end

mutual

/-- The text of a tree, without markup. -/
def content : Tree → String
  | element _ _ children => contentAll children
  | text s => s

def contentAll : List Tree → String
  | [] => ""
  | t :: rest => t.content ++ contentAll rest

end

mutual

/-- Empty attributes and children are left out. -/
def toJson : Tree → Json
  | element tag attributes children =>
    Json.ofMembers [("type", some (.string "element")), ("tag", some (.string tag)),
      ("attrs", if attributes.isEmpty then none
        else some (.object (attributes.map fun (name, value) => (name, .string value)))),
      ("children", if children.isEmpty then none else some (.array (toJsonAll children)))]
  | text s => .object [("type", .string "text"), ("text", .string s)]

def toJsonAll : List Tree → List Json
  | [] => []
  | t :: rest => t.toJson :: toJsonAll rest

end

end Tree

end TsxPreview
