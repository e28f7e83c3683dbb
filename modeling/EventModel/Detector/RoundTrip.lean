import EventModel.Detector.Event
import EventModel.Stream

/-!
# Events through a stream

`roundTrip` builds an event, writes it to a stream and reads it back, once from the stream and once
from the flat form of the frame. It tells whether anything was lost on the way.
-/

namespace EventModel.Detector

open Store

/-- What comes back of an event. -/
structure RoundTrip where
  /-- The stream that holds the event. -/
  bytes : Bytes
  /-- The event that the stream describes. -/
  event : EventSpec
  /-- The frame that was read writes the same stream again. -/
  identical : Bool
  /-- The event that the flat form of the frame describes. -/
  reread : EventSpec

/-- An operation on the store as a step of the way. -/
def storeStep (action : Action α) : ExceptT StreamError (StateM Store) α := fun s =>
  let (result, s) := action s
  (result.mapError .content, s)

/-- A question to the store as a step of the way. -/
def storeQuestion (question : Store → Except Error α) : ExceptT StreamError (StateM Store) α :=
  fun s => ((question s).mapError .content, s)

/-- Writes an event, reads it back, and writes once more the frame that was read. -/
def roundTripSteps (spec : EventSpec) : ExceptT StreamError (StateM Store) RoundTrip := do
  let data ← storeStep do writeFrame (← buildFrame spec)
  let bytes := Stream.encode {} data
  let (f, _) ← ExceptT.mk (readStream {} registry bytes)
  let event ← storeQuestion (ofFrame · f)
  let again ← storeStep (writeStream {} f)
  let g ← storeStep (reread data)
  return { bytes, event, identical := again == bytes, reread := ← storeQuestion (ofFrame · g) }

/-- Sends an event through a stream, in a store of its own. -/
def roundTrip (spec : EventSpec) : Except StreamError RoundTrip :=
  (roundTripSteps spec Store.empty).1

end EventModel.Detector
