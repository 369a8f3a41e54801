import TsxPreview.Project

/-!
Locations of the in-memory router: a path with an optional query and hash, a history, and the
matching of paths against patterns.
-/

namespace TsxPreview

/-- Where a script stands. -/
structure Navigation where
  /-- Path, then an optional `?query` and `#hash`. -/
  location : String := "/"
  /-- Earlier locations, newest first. -/
  history : List String := []
  /-- What the last matched route captured, sorted by name. -/
  params : List (String × String) := []
  deriving Inhabited

namespace Navigation

def isMark (c : Char) : Bool := c == '?' || c == '#'

/-- The path of a location. -/
def pathOf (location : List Char) : List Char := location.takeWhile fun c => !isMark c

/-- The query of a location, with its mark. -/
def searchOf (location : List Char) : List Char :=
  (location.dropWhile fun c => !isMark c).takeWhile (· != '#')

/-- The hash of a location, with its mark. -/
def hashOf (location : List Char) : List Char := location.dropWhile (· != '#')

def pathname (n : Navigation) : String := String.ofList (pathOf n.location.toList)

def search (n : Navigation) : String := String.ofList (searchOf n.location.toList)

def hash (n : Navigation) : String := String.ofList (hashOf n.location.toList)

def isSlash (c : Char) : Bool := c == '/'

/-- The segments of a path; empty ones do not count. -/
def segments (path : List Char) : List (List Char) := (Path.splitBy isSlash path).filter (· != [])

/-- A location seen from a path: absolute, a query or hash of that path, or relative to it. -/
def resolve (current target : List Char) : List Char :=
  match target with
  | '/' :: _ => target
  | '?' :: _ | '#' :: _ => current ++ target
  | _ => Path.ofSegments ((Path.splitBy isSlash target).foldl Path.enter (segments current))

/-- A location seen from where a script stands. -/
def locate (n : Navigation) (target : String) : String :=
  String.ofList (resolve (pathOf n.location.toList) target.toList)

/-- Goes to a location; `none` if that is where one is. -/
def goTo (n : Navigation) (target : String) (replace : Bool) : Option Navigation :=
  let target := n.locate target
  if target = n.location then none
  else some { n with
    location := target
    history := if replace then n.history else n.location :: n.history }

/-- Goes back as many steps as the history has; `none` for none. -/
def goBack (n : Navigation) (steps : Nat) : Option Navigation :=
  match (n.history.take steps).getLast? with
  | none => none
  | some location => some { n with location, history := n.history.drop steps }

/-! ### Routes -/

/-- Drops question marks at the end. -/
def parameterName (name : List Char) : List Char := (name.reverse.dropWhile (· == '?')).reverse

/-- Matches segments one by one. `:name` captures a segment and `*` all that are left. -/
def matchSegments : List (List Char) → List (List Char) → List (String × String) →
    Option (List (String × String))
  | [], [], params => some params
  | [], _ :: _, _ => none
  | ['*'] :: _, rest, params =>
    some (insertSorted "*" (String.ofList (List.intercalate ['/'] rest)) params)
  | _ :: _, [], _ => none
  | (':' :: name) :: pattern, segment :: rest, params =>
    matchSegments pattern rest
      (insertSorted (String.ofList (parameterName name)) (String.ofList segment) params)
  | part :: pattern, segment :: rest, params =>
    if part = segment then matchSegments pattern rest params else none

/-- What a pattern captures of a path that it matches as a whole. -/
def matchPath? (pattern path : String) : Option (List (String × String)) :=
  matchSegments (segments pattern.toList) (segments path.toList) []

end Navigation

end TsxPreview
