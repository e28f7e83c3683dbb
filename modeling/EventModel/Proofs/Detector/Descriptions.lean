import Mathlib.Algebra.Order.BigOperators.Group.List
import Mathlib.Algebra.Order.Ring.Nat
import EventModel.Detector.Samples
import EventModel.Proofs.Store.View

/-!
# Descriptions of events

Not every description can be built and sent through a stream. `EventSpec.InRange` says that its
indices choose from its lists, `EventSpec.ColumnsFit` that its relations and weights fit in columns,
and `EventSpec.InMemory` that it is not larger than what a computer can address. The events that are
generated are in range, whatever their size (`inRange_generateEvent`).

What an event becomes in a store is described here too: the bodies of its objects, given the keys at
which they start (`ClusterSpec.body`, `TrackSpec.body`), and the collections that a frame shows of it
(`EventSpec.views`).
-/

namespace EventModel.Detector

namespace EventSpec

variable (spec : EventSpec)

/-- Every index is below the length of the list that it chooses from. -/
structure InRange : Prop where
  clusters : ∀ c ∈ spec.clusters,
    (∀ i ∈ c.hits, i < spec.hits.length) ∧ ∀ i ∈ c.clusters, i < spec.clusters.length
  tracks : ∀ t ∈ spec.tracks,
    (∀ i ∈ t.hits, i < spec.hits.length) ∧ ∀ i ∈ t.seed, i < spec.clusters.length
  selected : ∀ i ∈ spec.selected, i < spec.tracks.length

/-- A column has at most 2³² - 1 elements. -/
structure ColumnsFit : Prop where
  clusterHits : (spec.clusters.map (·.hits.length)).sum < columnLimit
  clusterClusters : (spec.clusters.map (·.clusters.length)).sum < columnLimit
  weights : (spec.clusters.map (·.weights.length)).sum < columnLimit
  trackHits : (spec.tracks.map (·.hits.length)).sum < columnLimit

/-- Each list takes less than 2⁶³ bytes, as all lists in memory: 24 for a hit, 96 for a cluster, 48
for a track and 8 for an index. -/
structure InMemory : Prop where
  hits : 24 * spec.hits.length < 2 ^ 63
  clusters : 96 * spec.clusters.length < 2 ^ 63
  tracks : 48 * spec.tracks.length < 2 ^ 63
  selected : 8 * spec.selected.length < 2 ^ 63

instance : Decidable spec.InRange :=
  decidable_of_iff
    ((∀ c ∈ spec.clusters,
        (∀ i ∈ c.hits, i < spec.hits.length) ∧ ∀ i ∈ c.clusters, i < spec.clusters.length) ∧
      (∀ t ∈ spec.tracks,
        (∀ i ∈ t.hits, i < spec.hits.length) ∧ ∀ i ∈ t.seed, i < spec.clusters.length) ∧
      ∀ i ∈ spec.selected, i < spec.tracks.length)
    ⟨fun ⟨hclusters, htracks, hselected⟩ => ⟨hclusters, htracks, hselected⟩,
      fun h => ⟨h.clusters, h.tracks, h.selected⟩⟩

instance : Decidable spec.ColumnsFit :=
  decidable_of_iff
    ((spec.clusters.map (·.hits.length)).sum < columnLimit ∧
      (spec.clusters.map (·.clusters.length)).sum < columnLimit ∧
      (spec.clusters.map (·.weights.length)).sum < columnLimit ∧
      (spec.tracks.map (·.hits.length)).sum < columnLimit)
    ⟨fun ⟨hhits, hclusters, hweights, htracks⟩ => ⟨hhits, hclusters, hweights, htracks⟩,
      fun h => ⟨h.clusterHits, h.clusterClusters, h.weights, h.trackHits⟩⟩

instance : Decidable spec.InMemory :=
  decidable_of_iff
    (24 * spec.hits.length < 2 ^ 63 ∧ 96 * spec.clusters.length < 2 ^ 63 ∧
      48 * spec.tracks.length < 2 ^ 63 ∧ 8 * spec.selected.length < 2 ^ 63)
    ⟨fun ⟨hhits, hclusters, htracks, hselected⟩ => ⟨hhits, hclusters, htracks, hselected⟩,
      fun h => ⟨h.hits, h.clusters, h.tracks, h.selected⟩⟩

end EventSpec

/-! ## Places -/

/-- Where an event is in a store: its collections have consecutive keys from `first` on, and the
objects of a collection have consecutive keys as well. -/
structure Places where
  first : CollectionKey
  hits : ObjectKey
  clusters : ObjectKey
  tracks : ObjectKey

def Places.collections (p : Places) : EventCollections where
  hits := p.first
  clusters := p.first + 1
  tracks := p.first + 2
  selected := p.first + 3

/-- The body of a cluster whose relations lead to the objects at its indices. -/
def ClusterSpec.body (p : Places) (spec : ClusterSpec) : Body cluster where
  payload := spec.payload
  toMany := .lists #v[spec.hits.map (p.hits + ·), spec.clusters.map (p.clusters + ·)]
  toOne := #v[]
  members := #v[spec.weights]

/-- The body of a track whose relations lead to the objects at its indices. -/
def TrackSpec.body (p : Places) (spec : TrackSpec) : Body track where
  payload := spec.payload
  toMany := .lists #v[spec.hits.map (p.hits + ·)]
  toOne := #v[spec.seed.map (p.clusters + ·)]
  members := #v[]

/-! ## Views of events -/

def hitView (payload : hit.payload.Value) : ObjectView hit where
  payload
  members := #v[]
  toMany := #v[]
  toOne := #v[]

/-- The relations of a cluster lead to the sites of its hits and clusters. -/
def ClusterSpec.view (spec : ClusterSpec) : ObjectView cluster where
  payload := spec.payload
  members := #v[spec.weights]
  toMany := #v[spec.hits.map (hitsName, ·), spec.clusters.map (clustersName, ·)]
  toOne := #v[]

/-- The relations of a track lead to the sites of its hits and of its seed. -/
def TrackSpec.view (spec : TrackSpec) : ObjectView track where
  payload := spec.payload
  members := #v[]
  toMany := #v[spec.hits.map (hitsName, ·)]
  toOne := #v[spec.seed.map (clustersName, ·)]

/-- The collections of an event, numbered from one. -/
def EventSpec.views (spec : EventSpec) : List CollectionView := [
  ⟨hitsName, ⟨1⟩, hit, .owned (spec.hits.map hitView)⟩,
  ⟨clustersName, ⟨2⟩, cluster, .owned (spec.clusters.map ClusterSpec.view)⟩,
  ⟨tracksName, ⟨3⟩, track, .owned (spec.tracks.map TrackSpec.view)⟩,
  ⟨selectedName, ⟨4⟩, track, .subset (spec.selected.map (tracksName, ·))⟩]

/-! ## Generated events -/

theorem length_hits_generateEvent (n : Nat) : (generateEvent n).hits.length = n :=
  (List.length_map _).trans List.length_range

theorem length_clusters_generateEvent (n : Nat) : (generateEvent n).clusters.length = n / 8 :=
  (List.length_map _).trans List.length_range

theorem length_tracks_generateEvent (n : Nat) : (generateEvent n).tracks.length = n / 4 :=
  (List.length_map _).trans List.length_range

/-- The block of `k` indices with a number is in range if its number is. -/
theorem lt_of_mem_block {k b n i : Nat} (hb : b < n / k) (hi : i ∈ (List.range k).map (k * b + ·)) :
    i < n := by
  rcases List.mem_map.1 hi with ⟨j, hj, rfl⟩
  have hj : j < k := List.mem_range.1 hj
  calc
    k * b + j < k * b + k := Nat.add_lt_add_left hj _
    _ = k * (b + 1) := (Nat.mul_succ k b).symm
    _ ≤ k * (n / k) := Nat.mul_le_mul_left k hb
    _ ≤ n := Nat.mul_div_le n k

/-- No index of a generated event is out of range. -/
theorem inRange_generateEvent (n : Nat) : (generateEvent n).InRange where
  clusters := by
    intro cluster hcluster
    rw [length_hits_generateEvent, length_clusters_generateEvent]
    rcases List.mem_map.1 hcluster with ⟨c, hc, rfl⟩
    have hc : c < n / 8 := List.mem_range.1 hc
    refine ⟨fun i hi => lt_of_mem_block hc hi, ?_⟩
    intro i hi
    dsimp only at hi
    split at hi
    · cases hi
    · rw [List.mem_singleton] at hi
      omega
  tracks := by
    intro track htrack
    rw [length_hits_generateEvent, length_clusters_generateEvent]
    rcases List.mem_map.1 htrack with ⟨t, ht, rfl⟩
    refine ⟨fun i hi => lt_of_mem_block (List.mem_range.1 ht) hi, ?_⟩
    intro i hi
    dsimp only at hi
    split at hi
    · cases hi
    · rename_i hclusters
      rw [Option.mem_some_iff] at hi
      rw [← hi]
      exact Nat.mod_lt t (Nat.pos_of_ne_zero hclusters)
  selected := by
    intro i hi
    rw [length_tracks_generateEvent]
    exact List.mem_range.1 (List.mem_filter.1 hi).1

/-- Objects with at most `k` relations each have a column that is not longer than their blocks. -/
theorem sum_blocks_lt {α : Type} {length : α → Nat} {xs : List α} {k n : Nat}
    (hlength : ∀ x ∈ xs, length x ≤ k) (hxs : xs.length = n / k) (hn : n < columnLimit) :
    (xs.map length).sum < columnLimit := by
  have hsum : (xs.map length).sum ≤ xs.length * k := by
    have hbound := List.sum_le_card_nsmul (xs.map length) k (List.forall_mem_map.2 hlength)
    rwa [List.length_map, nsmul_eq_mul, Nat.cast_id] at hbound
  calc
    (xs.map length).sum ≤ xs.length * k := hsum
    _ = n / k * k := by rw [hxs]
    _ ≤ n := Nat.div_mul_le_self n k
    _ < columnLimit := hn

/-- A generated event has columns that are not longer than the list of its hits. -/
theorem columnsFit_generateEvent {n : Nat} (hn : n < columnLimit) : (generateEvent n).ColumnsFit where
  clusterHits := sum_blocks_lt (k := 8)
    (List.forall_mem_map.2 fun c _ => by simp) (length_clusters_generateEvent n) hn
  clusterClusters := sum_blocks_lt (k := 8)
    (List.forall_mem_map.2 fun c _ => by dsimp only; split <;> simp)
    (length_clusters_generateEvent n) hn
  weights := sum_blocks_lt (k := 8)
    (List.forall_mem_map.2 fun c _ => by simp) (length_clusters_generateEvent n) hn
  trackHits := sum_blocks_lt (k := 4)
    (List.forall_mem_map.2 fun t _ => by simp) (length_tracks_generateEvent n) hn

theorem inMemory_generateEvent {n : Nat} (hn : n < columnLimit) : (generateEvent n).InMemory := by
  have hlimit : columnLimit = 2 ^ 32 := rfl
  have hselected : (generateEvent n).selected.length ≤ n / 4 :=
    (List.length_filter_le _ _).trans_eq List.length_range
  constructor
  · rw [length_hits_generateEvent]
    omega
  · rw [length_clusters_generateEvent]
    omega
  · rw [length_tracks_generateEvent]
    omega
  · omega

end EventModel.Detector
