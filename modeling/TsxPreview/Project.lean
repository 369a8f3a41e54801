import TsxPreview.Record

/-!
Paths and projects. Paths are in one normal form; a project is a set of files, in the order of their
paths, with an entry.
-/

namespace TsxPreview

/-! ### Paths -/

namespace Path

def isSeparator (c : Char) : Bool := c == '/' || c == '\\'

/-- The stretches between characters that satisfy `p`; never empty. -/
def splitBy (p : Char → Bool) : List Char → List (List Char)
  | [] => [[]]
  | c :: rest =>
    if p c then [] :: splitBy p rest
    else match splitBy p rest with
      | [] => [[c]]
      | word :: words => (c :: word) :: words

/-- Enters one more segment; `..` leaves one, but not the root. -/
def enter (reached : List (List Char)) (segment : List Char) : List (List Char) :=
  if segment = [] ∨ segment = ['.'] then reached
  else if segment = ['.', '.'] then reached.dropLast
  else reached ++ [segment]

def segments (path : List Char) : List (List Char) := (splitBy isSeparator path).foldl enter []

def ofSegments (list : List (List Char)) : List Char := '/' :: List.intercalate ['/'] list

end Path

/-- Starts with a slash, has no empty, `.` or `..` segments, and ends with a slash only at the
root. -/
def normalizePath (path : String) : String :=
  String.ofList (Path.ofSegments (Path.segments path.toList))

/-- The directory of a path; that of a file at the top is the root. -/
def parentDir (path : String) : String :=
  String.ofList (Path.ofSegments (Path.segments path.toList).dropLast)

/-! ### Specifiers -/

/-- Prefixes that stand for the root of the project. -/
def defaultAliasPrefixes : List String := ["@/", "~/"]

inductive SpecifierKind where
  | relative | absolute | aliased
  /-- The name of a package. -/
  | bare
  deriving DecidableEq, Inhabited

namespace SpecifierKind

def classify (specifier : String) (aliases : List String) : SpecifierKind :=
  if specifier.startsWith "./" || specifier.startsWith "../" || specifier == "."
    || specifier == ".." then relative
  else if specifier.startsWith "/" then absolute
  else if aliases.any fun p => specifier.startsWith p then aliased
  else bare

def isExternal (k : SpecifierKind) : Bool := k == bare

end SpecifierKind

/-! ### Projects -/

inductive ProjectError where
  | empty
  | missingEntry (entry : String)
  | duplicatePath (path : String)
  deriving DecidableEq

def ProjectError.message : ProjectError → String
  | empty => "project has no files"
  | missingEntry entry => s!"entry '{entry}' is not a project file"
  | duplicatePath path => s!"two files normalise to the same path '{path}'"

/-- Files sorted by path, and the path of the entry. Paths are normal. -/
structure Project where
  files : List (String × String)
  entry : String
  deriving Inhabited

namespace Project

def extensions : List String := [".tsx", ".ts", ".jsx", ".js"]

def get? (p : Project) (path : String) : Option String := p.files.lookup path

def contains (p : Project) (path : String) : Bool := (p.get? path).isSome

def paths (p : Project) : List String := p.files.map (·.1)

/-- The entry may be given without its extension. -/
def findEntry (files : List (String × String)) (entry : String) : Except ProjectError String :=
  let candidates := entry :: extensions.map (entry ++ ·)
  match candidates.find? fun path => (files.lookup path).isSome with
  | some path => .ok path
  | none => .error (.missingEntry entry)

def addFile (files : List (String × String)) (path text : String) :
    Except ProjectError (List (String × String)) :=
  let path := normalizePath path
  if (files.lookup path).isSome then .error (.duplicatePath path)
  else .ok (insertSorted path text files)

def ofFiles (files : List (String × String)) (entry : String) : Except ProjectError Project := do
  let files ← files.foldlM (fun acc (path, text) => addFile acc path text) []
  if files.isEmpty then .error .empty
  let entry ← findEntry files (normalizePath entry)
  return ⟨files, entry⟩

/-- A project of one file. -/
def single (path text : String) : Project :=
  let path := normalizePath path
  ⟨[(path, text)], path⟩

/-- Replaces or adds a file. -/
def set (p : Project) (path text : String) : Project :=
  { p with files := insertSorted (normalizePath path) text p.files }

def withEntry (p : Project) (entry : String) : Except ProjectError Project := do
  return { p with entry := ← findEntry p.files (normalizePath entry) }

end Project

end TsxPreview
