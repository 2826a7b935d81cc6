import Mathlib.Data.List.Lex
import Mathlib.Data.List.Basic

/-!
# Bytes, names and paths

Rust compares strings and file names byte by byte. `byteKey` is the sequence of
bytes of a text, read as numbers, so the order of two names is the
lexicographic order of their keys.

A file name the kernel returns is an arbitrary byte string. `OsStr` keeps the
two cases the program tells apart: text that is valid UTF-8, and bytes that are
not, together with the replacement text `Path::display` prints for them. A path
is the list of its `/`-separated segments.
-/

namespace RemoteFs

abbrev Bytes := List UInt8

def utf8Bytes (s : String) : Bytes :=
  s.toByteArray.data.toList

theorem utf8Bytes_injective : Function.Injective utf8Bytes := by
  intro s t h
  have hdata : s.toByteArray.data = t.toByteArray.data := Array.toList_inj.mp h
  exact String.toByteArray_inj.mp (ByteArray.ext hdata)

/-- Bytes as a list of numbers, the key under which they are compared. -/
def byteKey (bytes : Bytes) : List ℕ :=
  bytes.map UInt8.toNat

theorem byteKey_injective : Function.Injective byteKey :=
  List.map_injective_iff.mpr fun _ _ h => UInt8.toNat_inj.mp h

def nameKey (s : String) : List ℕ :=
  byteKey (utf8Bytes s)

theorem nameKey_injective : Function.Injective nameKey :=
  byteKey_injective.comp utf8Bytes_injective

@[simp] theorem nameKey_inj {s t : String} : nameKey s = nameKey t ↔ s = t :=
  nameKey_injective.eq_iff

inductive OsStr where
  | utf8 (text : String)
  | invalid (bytes : Bytes) (lossy : String)
  deriving DecidableEq, Repr

namespace OsStr

def asBytes : OsStr → Bytes
  | .utf8 text => utf8Bytes text
  | .invalid bytes _ => bytes

def toStr : OsStr → Option String
  | .utf8 text => some text
  | .invalid _ _ => none

def display : OsStr → String
  | .utf8 text => text
  | .invalid _ lossy => lossy

end OsStr

/-- A path as the list of its segments; an absolute path starts with the empty
segment. -/
abbrev PathBuf := List OsStr

namespace PathBuf

def join (path : PathBuf) (name : OsStr) : PathBuf :=
  path ++ [name]

def display (path : PathBuf) : String :=
  String.intercalate "/" (path.map OsStr.display)

/-- The raw bytes of a path, with `/` (47) between the segments. -/
def asBytes (path : PathBuf) : Bytes :=
  List.intercalate [47] (path.map OsStr.asBytes)

end PathBuf

end RemoteFs
