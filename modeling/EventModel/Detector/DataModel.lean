import EventModel.Registry

/-!
# The data model of a detector

A hit is a signal of one cell, a cluster groups hits and other clusters with a weight for each hit,
and a track is a fit through hits that was seeded by a cluster.
-/

namespace EventModel.Detector

/-- Payload: the cell, the energy and the time. -/
def hit : DataType :=
  { name := "edm::Hit"
    payload := .pair .u64 (.pair .f64 .f32)
    element := .unit
    toMany := []
    toOne := []
    members := [] }

/-- Payload: the energy and the position; the members are the weights of the hits. -/
def cluster : DataType :=
  { name := "edm::Cluster"
    payload := .pair .f64 (.array 3 .f32)
    element := .f32
    toMany := [⟨"hits", "edm::Hit"⟩, ⟨"clusters", "edm::Cluster"⟩]
    toOne := []
    members := ["hit_weights"] }

/-- Payload: the deviation of the fit and its degrees of freedom. -/
def track : DataType :=
  { name := "edm::Track"
    payload := .pair .f32 .i32
    element := .unit
    toMany := [⟨"hits", "edm::Hit"⟩]
    toOne := [⟨"seed", "edm::Cluster"⟩]
    members := [] }

/-- Every type of the data model. -/
def registry : Registry :=
  .ofList [hit, cluster, track]

end EventModel.Detector
