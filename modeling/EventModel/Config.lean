import EventModel.Text.Quoted

/-!
# Configuration
-/

namespace EventModel

/-- How collections are built and rebuilt. -/
structure Config where
  /-- Whether rebuilding checks that the windows of a column cover it exactly. -/
  verify : Bool := true
  /-- The number of objects that a new collection reserves room for. -/
  capacity : Nat := 0
  deriving DecidableEq, Repr

/-- The text that shows the settings. -/
def Config.describe (c : Config) : String :=
  Text.structureText "Config"
    [("verify_on_read", toString c.verify), ("initial_capacity", toString c.capacity)] true

end EventModel
