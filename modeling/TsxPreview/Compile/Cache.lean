import TsxPreview.Digest.Sha256
import TsxPreview.Json.Basic
import TsxPreview.Repair.Sanitize
import TsxPreview.Syntax.Executable

/-!
Compiled modules, and the store that keeps them by fingerprint: by the digest of all that a compiled
module depends on besides the other files.
-/

namespace TsxPreview

structure Fingerprint where
  bytes : List UInt8
  deriving DecidableEq, Inhabited

namespace Fingerprint

/-- The low eight bytes of a length, the lowest first. -/
def littleEndian (n : Nat) : List UInt8 := (Sha256.bigEndian 8 n).reverse

/-- A field after its length, so that neighbouring fields do not run together. -/
def field (text : String) : List UInt8 :=
  littleEndian text.utf8ByteSize ++ text.toUTF8.toList

def profileName : Profile → String
  | .entry => "entry"
  | .module => "module"

def importedName : ImportedName → String
  | .default => "default"
  | .star => "*"
  | .named name => name

def bindingFields (b : ExternalBinding) : List UInt8 :=
  field b.name ++ field (importedName b.imported) ++ field b.source

/-- All the fields, one after the other. -/
def content (path : String) (profile : Profile) (text : String) (bindings : List ExternalBinding) :
    List UInt8 :=
  field path ++ field (profileName profile) ++ field text ++ bindings.flatMap bindingFields

def of (path : String) (profile : Profile) (text : String) (bindings : List ExternalBinding) :
    Fingerprint :=
  ⟨Sha256.hash (content path profile text bindings)⟩

def hexByte (b : UInt8) : List Char := [Json.lowerHex (b.toNat / 16), Json.lowerHex (b.toNat % 16)]

def hexChars (f : Fingerprint) : List Char := f.bytes.flatMap hexByte

def hex (f : Fingerprint) : String := String.ofList f.hexChars

/-- The first digits, for reading. -/
def display (f : Fingerprint) : String := String.ofList (f.hexChars.take 12)

end Fingerprint

/-! ### Modules and their store -/

structure CompiledModule where
  path : String
  executable : Executable
  /-- The repaired text; the spans of the executable form point into it. -/
  source : SourceFile
  fixes : List Fix
  warnings : List RepairWarning
  fingerprint : Fingerprint

def CompiledModule.imports (m : CompiledModule) : List ResolvedImport := m.executable.imports

/-- Modules by fingerprint, and how often one was found. -/
structure CompileCache where
  entries : List (Fingerprint × CompiledModule) := []
  hits : Nat := 0
  misses : Nat := 0

namespace CompileCache

def get? (c : CompileCache) (f : Fingerprint) : Option CompiledModule := c.entries.lookup f

/-- The module of a fingerprint if it is still valid. -/
def lookup (c : CompileCache) (f : Fingerprint) (valid : CompiledModule → Bool) :
    Option CompiledModule × CompileCache :=
  match (c.get? f).filter valid with
  | some m => (some m, { c with hits := c.hits + 1 })
  | none => (none, { c with misses := c.misses + 1 })

/-- Adds a module, or replaces the one of its fingerprint. -/
def insert (c : CompileCache) (m : CompiledModule) : CompileCache :=
  { c with entries := (m.fingerprint, m) :: c.entries.filter (·.1 ≠ m.fingerprint) }

def size (c : CompileCache) : Nat := c.entries.length

end CompileCache

end TsxPreview
