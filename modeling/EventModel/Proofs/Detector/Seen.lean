import EventModel.Proofs.Detector.Descriptions
import EventModel.Proofs.Store.Closed
import EventModel.Proofs.Store.View

/-!
# What is seen of an event

The view of a frame tells which event it holds: whatever frame shows the collections of a
description, in any store, the event in it is the one described (`ofFrame_of_views`). So an event is
the same in two frames with the same view.
-/

namespace EventModel.Detector

open Store

/-! ## Positions -/

variable {s : Store} {f : FrameKey} {frame : Frame} {name : String} {id : CollectionId} {i : Nat}

/-- The frame holds a collection with this number under the name. -/
def HasNumber (s : Store) (frame : Frame) (name : String) (id : CollectionId) : Prop :=
  ∃ c col, (name, c) ∈ frame.slots ∧ s.collections.get? c = some col ∧ col.id = id

section Positions

variable (h : WellFormed s) (hframe : s.frames.get? f = some frame)

include h hframe

/-- The position of an object is read off its site. -/
theorem positionIn_of_siteOf {place : Option ObjectKey} (hnumber : HasNumber s frame name id)
    (hsite : s.siteOf frame place = .ok (name, i)) (hi : i < 2 ^ 63) :
    positionIn s id place = .ok i := by
  rcases hnumber with ⟨c, col, hslot, hcol, rfl⟩
  rcases bind_eq_ok_iff.1 hsite with ⟨o, ho, hsite⟩
  split at hsite
  · rename_i c' i' howned
    split at hsite
    · rename_i name' hname
      cases hsite
      rcases Option.map_eq_some_iff.1 hname with ⟨⟨name', c''⟩, hfound, rfl⟩
      have hc : c'' = c' := by simpa using List.find?_some hfound
      have hslot' := List.mem_of_find?_eq_some hfound
      subst hc
      -- the site names one collection of the frame only
      have hsame := (h.slot_eq ⟨f, hframe⟩ hslot' hslot).1 rfl
      subst hsame
      have hid : s.idOf place = .ok (.ofPosition i col.id) := by
        rw [idOf, ho]
        exact congrArg Except.ok (addressOf_of_owned howned hcol)
      have hposition := ObjectId.position?_ofPosition hi col.id
      have hcollection : (ObjectId.ofPosition i col.id).collection = col.id := rfl
      unfold positionIn
      rw [hid]
      simp [bind, Except.bind, hcollection, hposition, pure, Except.pure]
    · cases hsite
  · cases hsite

theorem positions_of_sites {α : Type} {place : α → Option ObjectKey} {xs : List α}
    {indices : List Nat} (hnumber : HasNumber s frame name id)
    (hsites : xs.mapM (fun x => s.siteOf frame (place x)) = .ok (indices.map (name, ·)))
    (hlt : ∀ i ∈ indices, i < 2 ^ 63) :
    xs.mapM (fun x => positionIn s id (place x)) = .ok indices := by
  have hpairs := List.forall₂_map_right_iff.1 (mapM_eq_ok_iff.1 hsites)
  have hboth := (List.forall₂_and_left indices xs).2 ⟨hlt, hpairs.flip⟩
  refine mapM_eq_ok_iff.2 (hboth.flip.imp ?_)
  rintro x i ⟨hi, hsite⟩
  exact positionIn_of_siteOf h hframe hnumber hsite hi

theorem relatedPositions_of_sites {t : DataType} {place : Option ObjectKey} {relation : Nat}
    (hnumber : HasNumber s frame name id) {places : List (Option ObjectKey)} {indices : List Nat}
    (hrelated : s.related t place relation = .ok places)
    (hsites : places.mapM (s.siteOf frame) = .ok (indices.map (name, ·)))
    (hlt : ∀ i ∈ indices, i < 2 ^ 63) :
    relatedPositions s t place relation id = .ok indices :=
  bind_eq_ok_iff.2 ⟨places, hrelated, positions_of_sites h hframe hnumber hsites hlt⟩

/-! ## Objects -/

variable {hits clusters : CollectionId} {k : ObjectKey} (hhits : HasNumber s frame hitsName hits)
  (hclusters : HasNumber s frame clustersName clusters)

include hhits hclusters

theorem readCluster_of_isView {spec : ClusterSpec} (hview : s.IsView frame k spec.view)
    (hhitsLt : ∀ i ∈ spec.hits, i < 2 ^ 63) (hclustersLt : ∀ i ∈ spec.clusters, i < 2 ^ 63) :
    readCluster s hits clusters (some k) = .ok spec := by
  rcases hview.toMany ⟨0, by decide⟩ with ⟨_, hrelated, hsites⟩
  have hhits := relatedPositions_of_sites h hframe hhits hrelated hsites hhitsLt
  rcases hview.toMany ⟨1, by decide⟩ with ⟨_, hrelated, hsites⟩
  have hclusters := relatedPositions_of_sites h hframe hclusters hrelated hsites hclustersLt
  have hweights := hview.members ⟨0, by decide⟩
  refine bind_eq_ok_iff.2 ⟨_, hview.payload, ?_⟩
  exact bind_eq_ok_iff.2 ⟨_, hhits, bind_eq_ok_iff.2 ⟨_, hclusters,
    bind_eq_ok_iff.2 ⟨_, hweights, rfl⟩⟩⟩

theorem readTrack_of_isView {spec : TrackSpec} (hview : s.IsView frame k spec.view)
    (hhitsLt : ∀ i ∈ spec.hits, i < 2 ^ 63) (hseedLt : ∀ i ∈ spec.seed, i < 2 ^ 63) :
    readTrack s hits clusters (some k) = .ok spec := by
  rcases hview.toMany ⟨0, by decide⟩ with ⟨_, hrelated, hsites⟩
  have hhits := relatedPositions_of_sites h hframe hhits hrelated hsites hhitsLt
  have hrest : (do
      return ({ payload := ← s.payload track (some k)
                hits := ← relatedPositions s track (some k) 0 hits
                seed := spec.seed } : TrackSpec) : Except Error TrackSpec) = .ok spec :=
    bind_eq_ok_iff.2 ⟨_, hview.payload, bind_eq_ok_iff.2 ⟨_, hhits, rfl⟩⟩
  rcases hview.toOne ⟨0, by decide⟩ with ⟨hsingle, hnone⟩ | ⟨place, site, hsingle, hsite, hsome⟩
  · have hseed : spec.seed = none := Option.map_eq_none_iff.1 hnone
    rw [hseed] at hrest
    exact bind_eq_ok_iff.2 ⟨none, hsingle, bind_eq_ok_iff.2 ⟨none, rfl, hrest⟩⟩
  · rcases Option.map_eq_some_iff.1 hsome with ⟨i, hseed, rfl⟩
    have hposition := positionIn_of_siteOf h hframe hclusters hsite (hseedLt i hseed)
    rw [hseed] at hrest
    refine bind_eq_ok_iff.2 ⟨some place, hsingle, bind_eq_ok_iff.2 ⟨some i, ?_, hrest⟩⟩
    exact map_eq_ok_iff.2 ⟨i, hposition, rfl⟩

end Positions

/-! ## Collections -/

section Collections

variable (h : WellFormed s) (hframe : s.frames.get? f = some frame) {t : DataType}
  {all : List CollectionView} (hall : s.viewFrame frame = .ok all)

include h hframe

theorem typedCollection_of_mem {c : CollectionKey} {col : Collection}
    (hslot : (name, c) ∈ frame.slots) (hcol : s.collections.get? c = some col) :
    typedCollection s frame col.type name = .ok col ∧ HasNumber s frame name col.id := by
  have hname : frame.collection? name = some c :=
    collection?_of_mem h hframe hslot
  have htyped : typedCollection s frame col.type name = .ok col := by
    rw [typedCollection, hname]
    exact bind_eq_ok_iff.2 ⟨col, collection_eq_ok_iff.2 hcol, if_pos rfl⟩
  exact ⟨htyped, c, col, hslot, hcol, rfl⟩

include hall

/-- What shows as a collection of objects is found under its name. -/
theorem exists_owned_of_view {views : List (ObjectView t)}
    (hview : ⟨name, id, t, .owned views⟩ ∈ all) : ∃ col ks,
      typedCollection s frame t name = .ok col ∧ HasNumber s frame name col.id ∧
        places col = ks.map some ∧ List.Forall₂ (s.IsView frame) ks views := by
  rcases exists_right_of_forall₂ (mapM_eq_ok_iff.1 hall).flip hview with ⟨⟨name', c⟩, hslot, hshown⟩
  rcases viewCollection_eq_ok hshown with ⟨⟨type, _, _, _, _, _, _⟩, content, hcol, hcontent, heq⟩
  cases heq
  rcases typedCollection_of_mem h hframe hslot hcol with ⟨htyped, hnumber⟩
  rcases viewContent_eq_ok_cases hcontent with ⟨objects, _, rfl, hsame, hviews⟩ | ⟨_, _, _, _, hfalse, _⟩
  · cases hsame
    exact ⟨_, objects.toList, htyped, hnumber, rfl, hviews⟩
  · cases hfalse

/-- What shows as a subset collection is found under its name. -/
theorem exists_subset_of_view {sites : List Site}
    (hview : ⟨name, id, t, .subset sites⟩ ∈ all) : ∃ col ks,
      typedCollection s frame t name = .ok col ∧ allObjects col = .ok ks ∧
        ks.mapM (fun k => s.siteOf frame (some k)) = .ok sites := by
  rcases exists_right_of_forall₂ (mapM_eq_ok_iff.1 hall).flip hview with ⟨⟨name', c⟩, hslot, hshown⟩
  rcases viewCollection_eq_ok hshown with ⟨⟨type, _, _, _, _, _, _⟩, content, hcol, hcontent, heq⟩
  cases heq
  have htyped := (typedCollection_of_mem h hframe hslot hcol).1
  rcases viewContent_eq_ok_cases hcontent with ⟨_, _, _, hfalse, _⟩ | ⟨_, ks, _, -, hsame, hobjects, hsites⟩
  · cases hfalse
  · cases hsame
    exact ⟨_, ks, htyped, hobjects, hsites⟩

end Collections

/-! ## Events -/

/-- What is computed of each object with a view is what the view was made of. -/
theorem mapM_places_of_isView {t : DataType} {α : Type} {view : α → ObjectView t} {specs : List α}
    {read : Option ObjectKey → Except Error α} {col : Collection} {ks : List ObjectKey}
    (hplaces : places col = ks.map some)
    (hviews : List.Forall₂ (s.IsView frame) ks (specs.map view))
    (hread : ∀ k, ∀ spec ∈ specs, s.IsView frame k (view spec) → read (some k) = .ok spec) :
    (places col).mapM read = .ok specs := by
  rw [hplaces, mapM_eq_ok_iff, List.forall₂_map_left_iff]
  have hboth := (List.forall₂_and_left specs ks).2
    ⟨fun _ hspec => hspec, (List.forall₂_map_right_iff.1 hviews).flip⟩
  refine hboth.flip.imp ?_
  rintro k spec ⟨hspec, hview⟩
  exact hread k spec hspec hview

/-- A frame that shows an event holds it. -/
theorem ofFrame_of_views {spec : EventSpec} (h : WellFormed s) (hframe : s.frames.get? f = some frame)
    (hviews : s.viewFrame frame = .ok spec.views) (hrange : spec.InRange)
    (hmemory : spec.InMemory) : ofFrame s f = .ok spec := by
  -- indices are below the lengths of lists in memory, so they are all positions
  have hhitsLt : spec.hits.length < 2 ^ 63 := by have := hmemory.hits; omega
  have hclustersLt : spec.clusters.length < 2 ^ 63 := by have := hmemory.clusters; omega
  have htracksLt : spec.tracks.length < 2 ^ 63 := by have := hmemory.tracks; omega
  rcases exists_owned_of_view h hframe hviews (.head _)
    with ⟨hits, hitKeys, hhits, hhitNumber, hhitPlaces, hhitViews⟩
  rcases exists_owned_of_view h hframe hviews (.tail _ (.head _))
    with ⟨clusters, clusterKeys, hclusters, hclusterNumber, hclusterPlaces, hclusterViews⟩
  rcases exists_owned_of_view h hframe hviews (.tail _ (.tail _ (.head _)))
    with ⟨tracks, trackKeys, htracks, htrackNumber, htrackPlaces, htrackViews⟩
  rcases exists_subset_of_view h hframe hviews (.tail _ (.tail _ (.tail _ (.head _))))
    with ⟨selected, selectedKeys, hselected, hobjects, hsites⟩
  have hpayloads : (places hits).mapM (s.payload hit) = .ok spec.hits :=
    mapM_places_of_isView hhitPlaces hhitViews fun k payload _ hview => hview.payload
  have hreadClusters : (places clusters).mapM (readCluster s hits.id clusters.id) =
      .ok spec.clusters := by
    refine mapM_places_of_isView hclusterPlaces hclusterViews ?_
    intro k cluster hcluster hview
    rcases hrange.clusters cluster hcluster with ⟨hhitRange, hclusterRange⟩
    exact readCluster_of_isView h hframe hhitNumber hclusterNumber hview
      (fun i hi => (hhitRange i hi).trans hhitsLt) fun i hi => (hclusterRange i hi).trans hclustersLt
  have hreadTracks : (places tracks).mapM (readTrack s hits.id clusters.id) = .ok spec.tracks := by
    refine mapM_places_of_isView htrackPlaces htrackViews ?_
    intro k track htrack hview
    rcases hrange.tracks track htrack with ⟨hhitRange, hseedRange⟩
    exact readTrack_of_isView h hframe hhitNumber hclusterNumber hview
      (fun i hi => (hhitRange i hi).trans hhitsLt) fun i hi => (hseedRange i hi).trans hclustersLt
  have hselection : selectedKeys.mapM (fun k => positionIn s tracks.id (some k)) =
      .ok spec.selected :=
    positions_of_sites h hframe htrackNumber hsites fun i hi => (hrange.selected i hi).trans htracksLt
  refine bind_eq_ok_iff.2 ⟨frame, frame_eq_ok_iff.2 hframe, ?_⟩
  refine bind_eq_ok_iff.2 ⟨_, hhits, bind_eq_ok_iff.2 ⟨_, hclusters, ?_⟩⟩
  refine bind_eq_ok_iff.2 ⟨_, htracks, bind_eq_ok_iff.2 ⟨_, hselected, ?_⟩⟩
  refine bind_eq_ok_iff.2 ⟨_, hpayloads, bind_eq_ok_iff.2 ⟨_, hreadClusters, ?_⟩⟩
  refine bind_eq_ok_iff.2 ⟨_, hreadTracks, bind_eq_ok_iff.2 ⟨_, hobjects, ?_⟩⟩
  exact bind_eq_ok_iff.2 ⟨_, hselection, rfl⟩

end EventModel.Detector
