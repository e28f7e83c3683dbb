import EventModel.Error

/-!
# Windows into a column

A window `[start, stop)` selects the elements of a column that belong to one record.
-/

namespace EventModel

/-- The elements from `start` up to, and without, `stop`. -/
structure Window where
  start : UInt32
  stop : UInt32
  deriving DecidableEq, Repr, Inhabited

namespace Window

/-- The number of elements; an inverted window has none. -/
def size (w : Window) : Nat :=
  w.stop.toNat - w.start.toNat

def isEmpty (w : Window) : Bool :=
  w.stop ≤ w.start

/-- The bounds of the window in a column of `len` elements. -/
def checked (w : Window) (len : Nat) : Except Error (Nat × Nat) :=
  let start := w.start.toNat
  let stop := w.stop.toNat
  if start > stop ∨ stop > len then
    .error (.corruptBuffer ("range " ++ toString start ++ ".." ++ toString stop
      ++ " exceeds buffer of " ++ toString len ++ " elements"))
  else .ok (start, stop)

/-- The selected elements of a column. -/
def slice (w : Window) (column : List α) : Except Error (List α) := do
  let (start, stop) ← w.checked column.length
  return (column.drop start).take (stop - start)

end Window

end EventModel
