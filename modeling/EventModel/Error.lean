import EventModel.Identity

/-!
# Errors of the object store

Every constructor of `Error` is one cause. `Error.kind` names the cause, and `Error.message` tells
what happened.
-/

namespace EventModel

/-- The causes for which an operation of the library fails. -/
inductive Error
  /-- The handle is empty, or its object was released. -/
  | unavailable
  /-- An index is not below the number of things it chooses from. -/
  | indexOutOfRange (index : Int) (len : Nat)
  /-- An object that a collection owns was offered to another one. -/
  | alreadyTracked (id : ObjectId)
  /-- The mode of a collection was to change although it holds objects. -/
  | invalidModeSwitch (len : Nat) (subset : Bool)
  /-- A floating object was offered to a subset collection. -/
  | requiresTrackedObject
  /-- The operation makes objects, which a subset collection does not own. -/
  | invalidOnSubset (operation : String)
  /-- A relation leads to a floating object, which has no address to store. -/
  | unpersistableReference (type : String) (index : Nat) (relation : String)
  /-- A stored address names a collection that is not known. -/
  | danglingReference (collection : CollectionId)
  | nameAlreadyPresent (name : String)
  | typeMismatch (expected found : String)
  /-- Stored buffers contradict themselves or the layout of their type. -/
  | corruptBuffer (reason : String)
  | unknownDataType (type : String)
  /-- A relation was asked for whose stored addresses were not replaced by links yet. -/
  | unresolvedReferences (type : String) (collection : CollectionId)
  /-- A number became too large for its word. No operation checks for this fault: the program panics
  at the addition. -/
  | overflow
  deriving DecidableEq, Repr

namespace Error

/-- An index that is too large for a signed word is reported as the largest one. -/
def outOfRange (index len : Nat) : Error :=
  .indexOutOfRange (min index (2 ^ 63 - 1)) len

/-- The name of the cause. -/
def kind : Error → String
  | unavailable => "Unavailable"
  | indexOutOfRange _ _ => "IndexOutOfRange"
  | alreadyTracked _ => "AlreadyTracked"
  | invalidModeSwitch _ _ => "InvalidModeSwitch"
  | requiresTrackedObject => "RequiresTrackedObject"
  | invalidOnSubset _ => "InvalidOnSubset"
  | unpersistableReference _ _ _ => "UnpersistableReference"
  | danglingReference _ => "DanglingReference"
  | nameAlreadyPresent _ => "NameAlreadyPresent"
  | typeMismatch _ _ => "TypeMismatch"
  | corruptBuffer _ => "CorruptBuffer"
  | unknownDataType _ => "UnknownDataType"
  | unresolvedReferences _ _ => "UnresolvedReferences"
  | overflow => "Panic"

/-- The text of an error. -/
def message : Error → String
  | unavailable => "object is not available"
  | indexOutOfRange index len =>
    "index " ++ toString index ++ " out of range (len " ++ toString len ++ ")"
  | alreadyTracked id => "object " ++ id.text ++ " is already tracked by a collection"
  | invalidModeSwitch len subset =>
    "cannot switch a non-empty collection of " ++ toString len ++ " objects to "
      ++ (if subset then "subset" else "normal") ++ " mode"
  | requiresTrackedObject => "subset collections only accept objects tracked by another collection"
  | invalidOnSubset operation =>
    "operation \x60" ++ operation ++ "\x60 is not valid on a subset collection"
  | unpersistableReference type index relation =>
    type ++ "[" ++ toString index ++ "]." ++ relation
      ++ " points to an object that is not in any collection"
  | danglingReference collection =>
    "dangling reference into unknown collection " ++ collection.text
  | nameAlreadyPresent name => "collection name already present: " ++ name
  | typeMismatch expected found => "type mismatch: expected " ++ expected ++ ", found " ++ found
  | corruptBuffer reason => "corrupt buffer: " ++ reason
  | unknownDataType type => "unknown data type: " ++ type
  | unresolvedReferences type collection =>
    "references of " ++ type ++ " collection " ++ collection.text ++ " are not resolved yet"
  | overflow => "attempt to add with overflow"

/-- The error can only come from stored data that is corrupt. An index out of range and a type
mismatch may also be a misuse of the library, so they are not counted. -/
def isDataCorruption : Error → Bool
  | danglingReference _ | corruptBuffer _ | unknownDataType _ => true
  | _ => false

end Error

end EventModel
