import EventModel.DataType
import EventModel.Text.Quoted

/-!
# Registries of data types

A `Registry` holds the data types that a reader knows, by their names.
-/

namespace EventModel

/-- Data types with distinct names, the latest first. -/
structure Registry where
  types : List DataType := []
  deriving DecidableEq, Repr

namespace Registry

def empty : Registry :=
  {}

/-- Adds a type in the place of one of the same name. -/
def register (r : Registry) (t : DataType) : Registry :=
  ⟨t :: r.types.filter (·.name != t.name)⟩

/-- Registers the types in order. -/
def ofList (types : List DataType) : Registry :=
  types.foldl register empty

/-- The type of a name. -/
def find? (r : Registry) (name : String) : Option DataType :=
  r.types.find? (·.name == name)

def contains (r : Registry) (name : String) : Bool :=
  (r.find? name).isSome

/-- The names of the types, ascending. -/
def names (r : Registry) : List String :=
  (r.types.map (·.name)).mergeSort fun a b => a ≤ b

def describe (r : Registry) : String :=
  Text.structureText "TypeRegistry"
    [("types", Text.listText (r.names.map Text.quote))] true

end Registry

end EventModel
