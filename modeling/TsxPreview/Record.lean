/-!
Named entries, each name once: records keep them in the order in which the names first came, sorted
entries in the order of the names.
-/

namespace TsxPreview

/-- Entries by name. The operations keep names distinct. -/
structure Record (α : Type) where
  entries : List (String × α)
  deriving Inhabited

namespace Record

variable {α β : Type}

def empty : Record α := ⟨[]⟩

def get? (r : Record α) (name : String) : Option α := (r.entries.find? (·.1 == name)).map (·.2)

def contains (r : Record α) (name : String) : Bool := r.entries.any (·.1 == name)

/-- Replaces the value in place, or adds an entry at the end. -/
def insertEntry (name : String) (value : α) : List (String × α) → List (String × α)
  | [] => [(name, value)]
  | (n, v) :: rest =>
    if n == name then (n, value) :: rest else (n, v) :: insertEntry name value rest

def insert (r : Record α) (name : String) (value : α) : Record α :=
  ⟨insertEntry name value r.entries⟩

def erase (r : Record α) (name : String) : Record α := ⟨r.entries.filter (·.1 != name)⟩

/-- A repeated name keeps its first place and takes the last value. -/
def ofList (entries : List (String × α)) : Record α :=
  entries.foldl (fun r (name, value) => r.insert name value) empty

def keys (r : Record α) : List String := r.entries.map (·.1)

def values (r : Record α) : List α := r.entries.map (·.2)

def size (r : Record α) : Nat := r.entries.length

def isEmpty (r : Record α) : Bool := r.entries.isEmpty

def mapValues (f : α → β) (r : Record α) : Record β := ⟨r.entries.map fun (n, v) => (n, f v)⟩

theorem get?_insert_self (r : Record α) (name : String) (value : α) :
    (r.insert name value).get? name = some value := by
  unfold insert get?
  simp only
  induction r.entries with
  | nil => simp [insertEntry]
  | cons e rest ih =>
    obtain ⟨n, v⟩ := e
    by_cases h : n = name <;> simp_all [insertEntry]

end Record

/-! ### Sorted entries -/

/-- The order of strings by their bytes, which is the order of their characters. -/
def stringLt (a b : String) : Bool := decide (a < b)

/-- Inserts into entries sorted by name, or replaces the one of that name. -/
def insertSorted {α : Type} (name : String) (value : α) :
    List (String × α) → List (String × α)
  | [] => [(name, value)]
  | (n, v) :: rest =>
    if name == n then (name, value) :: rest
    else if stringLt name n then (name, value) :: (n, v) :: rest
    else (n, v) :: insertSorted name value rest

end TsxPreview
