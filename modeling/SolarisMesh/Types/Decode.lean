import SolarisMesh.Lib.JsonText

/-!
# Reading structures

How a structure is read from a JSON value: by the names of its members from an object, by their
places from an array. Members can be required, nullable or have a default; a variant without
contents is a string or an object with one null.
-/

namespace SolarisMesh.Types

open Lib

/-- The members of a structure: those of an object, or the items of an array as far as they go. -/
def asFields (names : List String) : Json → Option (String → Option Json)
  | .object members => some fun name => members.lookup name
  | .array items =>
    if items.length ≤ names.length then some fun name => (names.zip items).lookup name else none
  | _ => none

/-- A variant without contents. -/
def variant {α : Type} (all : List α) (asStr : α → String) : Json → Option α
  | .string name => all.find? (asStr · = name)
  | .object [(name, .null)] => all.find? (asStr · = name)
  | _ => none

/-- A required member. -/
def required {α : Type} (decode : Json → Option α) (value : Option Json) : Option α :=
  value.bind decode

/-- A member that may be missing or null. -/
def nullable {α : Type} (decode : Json → Option α) : Option Json → Option (Option α)
  | none | some .null => some none
  | some value => (decode value).map some

/-- A member with a default. -/
def defaulted {α : Type} (default : α) (decode : Json → Option α) : Option Json → Option α
  | none => some default
  | some value => decode value

@[simp] lemma defaulted_some {α : Type} (default : α) (decode : Json → Option α) (value : Json) :
    defaulted default decode (some value) = decode value := rfl

def asU32 (value : Json) : Option ℕ := value.asU64.filter (· < 2 ^ 32)

def asItems {α : Type} (decode : Json → Option α) : Json → Option (List α)
  | .array items => items.mapM decode
  | _ => none

end SolarisMesh.Types
