import EventModel.Number.Shortest
import EventModel.Text.Quoted

/-!
# Parameters of a frame

A frame carries named parameters of four kinds. A key holds a list of values, and the same key may
be used for each kind. The entries of a kind are kept in ascending order of their keys, so that
equal stores are equal lists.
-/

namespace EventModel

/-- The kinds of values that a parameter can hold. -/
inductive ParameterKind
  | int
  | float
  | double
  | string
  deriving DecidableEq, Repr

/-- The values of a kind. -/
abbrev ParameterKind.Value : ParameterKind → Type
  | int => Int32
  | float => Binary32
  | double => Binary64
  | string => String

namespace ParameterKind

/-- Equality of values; floating point numbers are compared as numbers. -/
def equal : (k : ParameterKind) → k.Value → k.Value → Bool
  | int, x, y => (x : Int32) == y
  | float, x, y => Binary32.equal x y
  | double, x, y => Binary64.equal x y
  | string, x, y => (x : String) == y

/-- The text that shows a value. -/
def valueText : (k : ParameterKind) → k.Value → String
  | int, x => toString (Int32.toInt x)
  | float, x => Binary32.text x
  | double, x => Binary64.text x
  | string, x => Text.quote x

end ParameterKind

/-- The entries of one kind, by ascending keys. -/
abbrev ParameterEntries (k : ParameterKind) :=
  List (String × List k.Value)

namespace ParameterEntries

/-- Puts a list of values under a key, in the place of what was there. -/
def insert (key : String) (values : List α) : List (String × List α) → List (String × List α)
  | [] => [(key, values)]
  | (other, old) :: rest =>
    if key < other then (key, values) :: (other, old) :: rest
    else if other = key then (key, values) :: rest
    else (other, old) :: insert key values rest

/-- The same keys hold equal values. -/
def equal (k : ParameterKind) (a b : ParameterEntries k) : Bool :=
  a.isEqv b fun (key, xs) (key', ys) => key == key' && xs.isEqv ys k.equal

/-- The text that shows the entries of a kind. -/
def describe (k : ParameterKind) (entries : ParameterEntries k) : String :=
  Text.listText (entries.map fun (key, values) =>
    Text.pairText (Text.quote key) (Text.listText (values.map k.valueText)))

end ParameterEntries

/-- The parameters of a frame, one list of entries for each kind. -/
structure Parameters where
  ints : ParameterEntries .int := []
  floats : ParameterEntries .float := []
  doubles : ParameterEntries .double := []
  strings : ParameterEntries .string := []
  deriving DecidableEq

namespace Parameters

def empty : Parameters :=
  {}

instance : Inhabited Parameters := ⟨empty⟩

/-- The entries of a kind. -/
def entries (p : Parameters) : (k : ParameterKind) → ParameterEntries k
  | .int => p.ints
  | .float => p.floats
  | .double => p.doubles
  | .string => p.strings

/-- Stores a list of values under a key, in the place of what was there. -/
def set (p : Parameters) : (k : ParameterKind) → String → List k.Value → Parameters
  | .int, key, values => { p with ints := ParameterEntries.insert key values p.ints }
  | .float, key, values => { p with floats := ParameterEntries.insert key values p.floats }
  | .double, key, values => { p with doubles := ParameterEntries.insert key values p.doubles }
  | .string, key, values => { p with strings := ParameterEntries.insert key values p.strings }

/-- The values under a key. -/
def get? (p : Parameters) (k : ParameterKind) (key : String) : Option (List k.Value) :=
  (p.entries k).lookup key

def contains (p : Parameters) (k : ParameterKind) (key : String) : Bool :=
  (p.get? k key).isSome

/-- The keys of a kind, ascending. -/
def keys (p : Parameters) (k : ParameterKind) : List String :=
  (p.entries k).map (·.1)

/-- The number of keys of all kinds. -/
def size (p : Parameters) : Nat :=
  p.ints.length + p.floats.length + p.doubles.length + p.strings.length

def isEmpty (p : Parameters) : Bool :=
  p.size == 0

/-- Equality of stores; floating point values are compared as numbers. -/
def equal (p q : Parameters) : Bool :=
  ParameterEntries.equal .int p.ints q.ints && ParameterEntries.equal .float p.floats q.floats
    && ParameterEntries.equal .double p.doubles q.doubles
    && ParameterEntries.equal .string p.strings q.strings

/-- The text that shows all parameters. -/
def describe (p : Parameters) : String :=
  Text.structureText "ParameterStore"
    [("ints", ParameterEntries.describe .int p.ints),
      ("floats", ParameterEntries.describe .float p.floats),
      ("doubles", ParameterEntries.describe .double p.doubles),
      ("strings", ParameterEntries.describe .string p.strings)] true

end Parameters

end EventModel
