import EventModel.Detector.Event

/-!
# Ready-made events

`sampleEvent` is a small event that uses every kind of relation, `sampleFrame` the same as a frame
with parameters, and `generateEvent` makes a regular event of any size.
-/

namespace EventModel.Detector

open Store

/-- A hit of the sample event; its time is one half. -/
def sampleHit (cell : UInt64) (energy : Binary64) : hit.payload.Value :=
  (cell, energy, ⟨0x3f000000⟩)

def sampleEvent : EventSpec where
  hits := [
    sampleHit 11 ⟨0x3ff8000000000000⟩,
    sampleHit 12 ⟨0x4004000000000000⟩,
    sampleHit 13 ⟨0x3fe8000000000000⟩]
  clusters := [
    { payload := (⟨0x4010000000000000⟩, #v[⟨0⟩, ⟨0x3f800000⟩, ⟨0x40000000⟩])
      hits := [0, 1]
      clusters := [1]
      weights := [⟨0x3ecccccd⟩, ⟨0x3f19999a⟩] },
    { payload := (⟨0x3fe8000000000000⟩, #v[⟨0x40400000⟩, ⟨0x40800000⟩, ⟨0x40a00000⟩])
      hits := [2]
      clusters := []
      weights := [⟨0x3f800000⟩] }]
  tracks := [
    { payload := (⟨0x3f99999a⟩, 3)
      hits := [0, 2]
      seed := some 0 }]
  selected := [0]

/-- The parameters of the sample frame. -/
def sampleParameters : Parameters :=
  Parameters.empty
    |>.set .int "run_number" [42]
    |>.set .double "energy_scale" [⟨0x3ff0000000000000⟩, ⟨0x3fef5c28f5c28f5c⟩]
    |>.set .string "detector" ["test-stand"]

def sampleFrame : Action FrameKey := do
  let f ← buildFrame sampleEvent
  setParameters f sampleParameters
  return f

/-- A quarter of a natural number. -/
def quarters (n : Nat) : Binary64 :=
  if n = 0 then .zero else ⟨(Binary64.ofNat n).bits - 0x0020000000000000⟩

/-- An event with `hits` hits. A cluster takes eight hits and leads to the cluster before it, a
track takes four hits and is seeded by a cluster, and every other track is selected. -/
def generateEvent (hits : Nat) : EventSpec :=
  let clusters := hits / 8
  let tracks := hits / 4
  { hits := (List.range hits).map fun i =>
      (UInt64.ofNat i, quarters (i % 97), Binary32.ofNat (i % 13))
    clusters := (List.range clusters).map fun c =>
      { payload := (Binary64.ofNat c, #v[Binary32.ofNat c, .zero, Binary32.ofNat 1])
        hits := (List.range 8).map (8 * c + ·)
        clusters := if c = 0 then [] else [c - 1]
        weights := List.replicate 8 ⟨0x3e000000⟩ }
    tracks := (List.range tracks).map fun t =>
      { payload := (Binary32.ofNat (t % 7), 4)
        hits := (List.range 4).map (4 * t + ·)
        seed := if clusters = 0 then none else some (t % clusters) }
    selected := (List.range tracks).filter (· % 2 = 0) }

end EventModel.Detector
