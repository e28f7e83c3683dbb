import EventModel.Proofs.Detector.Building
import EventModel.Proofs.Detector.Seen
import EventModel.Proofs.Store.Viewed

/-!
# The frame of an event

A frame that is built from a description holds the collections of the event under their names
(`exists_buildFrame`), and it shows the event (`Framed.viewFrame`).
-/

namespace EventModel

namespace Store

/-! ## What filled collections show -/

variable {s : Store} {frame : Frame} {t : DataType} {c : CollectionKey} {k first : ObjectKey} {i : Nat}
  {bodies : List (Body t)} {name : String}

namespace OwnsFrom

theorem keeps (h : s.OwnsFrom c first bodies) (hi : i < bodies.length) :
    s.Keeps c i (first + i) := by
  rcases h.exists_object hi with ⟨body, ho⟩
  exact ⟨_, ho, rfl⟩

variable (hwell : WellFormed s) (hheld : ∃ f, s.frames.get? f = some frame)
  (hslot : (name, c) ∈ frame.slots)

include hwell hheld hslot

/-- The site of an object is the name of its collection with its position. -/
theorem hasSite (h : s.OwnsFrom c first bodies) (hi : i < bodies.length) :
    s.HasSite frame (first + i) (name, i) :=
  (h.keeps hi).hasSite hwell hheld hslot

theorem hasSites (h : s.OwnsFrom c first bodies) {indices : List Nat}
    (hlt : ∀ i ∈ indices, i < bodies.length) :
    List.Forall₂ (s.HasSite frame) (indices.map (first + ·)) (indices.map (name, ·)) := by
  rw [List.forall₂_map_left_iff, List.forall₂_map_right_iff, List.forall₂_same]
  exact fun i hi => h.hasSite hwell hheld hslot (hlt i hi)

end OwnsFrom

/-- The objects that were filled are shown one by one. -/
theorem OwnsFrom.mapM_viewObject {α : Type} {specs : List α} {toBody : α → Body t}
    {view : α → ObjectView t} (h : s.OwnsFrom c first (specs.map toBody)) (frame : Frame)
    (hview : ∀ k, ∀ spec ∈ specs, s.body t k = .ok (toBody spec) → s.IsView frame k (view spec)) :
    (List.range' first (specs.map toBody).length).mapM (s.viewObject frame t) =
      .ok (specs.map view) := by
  rw [mapM_eq_ok_iff, List.forall₂_iff_get]
  refine ⟨by simp, ?_⟩
  intro i hi hi'
  have hspec : i < specs.length := by simpa using hi'
  have hbody : (specs.map toBody)[i]? = some (toBody specs[i]) := by simp [hspec]
  have hread : s.body t (first + i) = .ok (toBody specs[i]) :=
    body_eq_ok_iff.2 ⟨_, h.object hbody, by simp⟩
  have hshown := viewObject_eq_ok_iff.2 (hview _ specs[i] (List.getElem_mem hspec) hread)
  simpa using hshown

theorem Stands.resolved {id : CollectionId} {storage : Storage}
    (h : s.Stands c t id storage none) {col : Collection} (hcol : s.collections.get? c = some col) :
    col.isUnresolved = false := by
  rcases h with ⟨config, generation, prepared, hget⟩
  cases hcol.symm.trans hget
  rfl

end Store

namespace Detector

open Store

/-! ## The frame -/

/-- The numbers of the collections of an event. -/
def eventIds : IdTable :=
  ⟨[(hitsName, ⟨1⟩), (clustersName, ⟨2⟩), (tracksName, ⟨3⟩), (selectedName, ⟨4⟩)], 5⟩

/-- The frame of an event. -/
def Places.frame (p : Places) : Frame where
  ids := eventIds
  slots := [(hitsName, p.collections.hits), (clustersName, p.collections.clusters),
    (tracksName, p.collections.tracks), (selectedName, p.collections.selected)]
  byName := .ofList [hitsName, clustersName, tracksName, selectedName]
  byId := .ofList [⟨1⟩, ⟨2⟩, ⟨3⟩, ⟨4⟩]

variable {s s' : Store} {p : Places} {spec : EventSpec} {f : FrameKey} {frame : Frame} {n : Nat}

/-- The collections of an event, and a frame that takes them; those from the `n`-th on are in no frame
yet. -/
structure Framed (s : Store) (p : Places) (spec : EventSpec) (f : FrameKey) (frame : Frame)
    (n : Nat) : Prop where
  reachable : Reachable s
  holds : HoldsEvent s p spec
  frame : s.frames.get? f = some frame
  unheld : ∀ c, p.first + n ≤ c → s.IsUnheld c

theorem HoldsEvent.keepsContents (h : HoldsEvent s p spec) (hkeeps : s.KeepsContents s') :
    HoldsEvent s' p spec where
  hits := OwnsFrom.keepsContents h.hits hkeeps
  clusters := OwnsFrom.keepsContents h.clusters hkeeps
  tracks := OwnsFrom.keepsContents h.tracks hkeeps
  selected := PointsAt.keepsContents h.selected hkeeps

/-- The names of an event, with their numbers. -/
def eventPairs : List (String × CollectionId) :=
  eventIds.pairs

/-- The table that has the first names of an event. -/
def firstIds (n : Nat) : IdTable :=
  ⟨eventPairs.take n, UInt32.ofNat (n + 1)⟩

/-- A frame with the first names of an event accepts the next one. -/
theorem accept_event {i : Fin 4} {name : String} {id : CollectionId}
    (hpair : eventPairs[i] = (name, id)) (hids : frame.ids = firstIds i)
    (hbyName : frame.byName = .ofList ((eventPairs.take i).map (·.1))) :
    frame.accept name = .ok (id, firstIds (i + 1)) := by
  have hall : ∀ i : Fin 4, (((Positions.ofList ((eventPairs.take i).map (·.1))).get?
      eventPairs[i].1).isSome = false) ∧
        (firstIds i).add eventPairs[i].1 = .ok (eventPairs[i].2, firstIds (i + 1)) := by
    decide +kernel
  have hnext := hall i
  rw [hpair] at hnext
  rw [Frame.accept, Frame.contains, hbyName, hids, hnext.1]
  exact hnext.2

/-- The frame takes the next collection. -/
theorem Framed.put (h : Framed s p spec f frame n) {i : Fin 4} {name : String} {id : CollectionId}
    (hpair : eventPairs[i] = (name, id)) (hids : frame.ids = firstIds i)
    (hbyName : frame.byName = .ofList ((eventPairs.take i).map (·.1))) {c : CollectionKey}
    (hcol : ∃ col, s.collections.get? c = some col) (hc : c = p.first + n) :
    ∃ s', put f name c s = (.ok id, s') ∧
      Framed s' p spec f ({ frame with ids := firstIds (i + 1) }.push name id c) (n + 1) := by
  rcases hcol with ⟨col, hcol⟩
  rcases exists_put_of_accept h.frame (accept_event hpair hids hbyName) hcol
    (h.unheld c (Nat.le_of_eq hc.symm)) with ⟨s', hrun, hkeeps, hframe, hunheld⟩
  refine ⟨s', hrun, hkeeps.reachable h.reachable, h.holds.keepsContents hkeeps, hframe, ?_⟩
  -- the next collections come after the one that is taken
  intro d hd
  rw [← Nat.add_assoc, ← hc] at hd
  exact hunheld d (Nat.ne_of_gt hd) (h.unheld d (hc ▸ Nat.le_of_succ_le hd))

/-- A description whose indices are in range is built. -/
theorem exists_buildFrame (hs : Reachable s) (hrange : spec.InRange) :
    ∃ f s', buildFrame spec s = (.ok f, s') ∧
      Framed s' (spec.places s) spec f (spec.places s).frame 4 := by
  rcases (rangeChecked_transaction (rangeChecked_buildSteps hs spec)).1 hrange
    with ⟨e, s₀, hrun, rfl, hholds, hreachable, hunheld⟩
  have hbuild : build spec s = (.ok (spec.places s).collections, s₀) := hrun
  rcases exists_newFrame s₀ with ⟨s₁, hnew, hkeeps, hframe, hstill⟩
  have h₁ : Framed s₁ (spec.places s) spec s₀.frames.next {} 0 :=
    ⟨hkeeps.reachable hreachable, hholds.keepsContents hkeeps, hframe,
      fun c hc => hstill c (hunheld c hc)⟩
  have hhits : eventPairs[(0 : Fin 4)] = (hitsName, ⟨1⟩) := rfl
  rcases h₁.put hhits rfl rfl h₁.holds.hits.exists_collection rfl with ⟨s₂, hput₁, h₂⟩
  have hclusters : eventPairs[(1 : Fin 4)] = (clustersName, ⟨2⟩) := rfl
  rcases h₂.put hclusters rfl rfl h₂.holds.clusters.exists_collection rfl with ⟨s₃, hput₂, h₃⟩
  have htracks : eventPairs[(2 : Fin 4)] = (tracksName, ⟨3⟩) := rfl
  rcases h₃.put htracks rfl rfl h₃.holds.tracks.exists_collection rfl with ⟨s₄, hput₃, h₄⟩
  have hselected : eventPairs[(3 : Fin 4)] = (selectedName, ⟨4⟩) := rfl
  rcases h₄.put hselected rfl rfl h₄.holds.selected.exists_collection rfl with ⟨s₅, hput₄, h₅⟩
  refine ⟨s₀.frames.next, s₅, ?_, h₅⟩
  unfold buildFrame
  rw [bind_apply_of_ok hbuild, bind_apply_of_ok hnew, bind_apply_of_ok hput₁,
    bind_apply_of_ok hput₂, bind_apply_of_ok hput₃, bind_apply_of_ok hput₄]
  rfl

/-- A description with an index that is out of range is refused, and nothing of it stays. -/
theorem buildFrame_eq_error (hs : Reachable s) (hrange : ¬ spec.InRange) :
    ∃ index len, len ≤ index ∧ buildFrame spec s = (.error (.outOfRange index len), s) := by
  rcases (rangeChecked_transaction (rangeChecked_buildSteps hs spec)).2 hrange
    with ⟨index, len, hlen, hbuild⟩
  refine ⟨index, len, hlen, ?_⟩
  unfold buildFrame
  rw [bind_apply, build, hbuild]

/-! ## The view of the frame -/

theorem Places.mem_hits (p : Places) : (hitsName, p.collections.hits) ∈ p.frame.slots :=
  .head _

theorem Places.mem_clusters (p : Places) : (clustersName, p.collections.clusters) ∈ p.frame.slots :=
  .tail _ (.head _)

theorem Places.mem_tracks (p : Places) : (tracksName, p.collections.tracks) ∈ p.frame.slots :=
  .tail _ (.tail _ (.head _))

theorem Places.mem_selected (p : Places) : (selectedName, p.collections.selected) ∈ p.frame.slots :=
  .tail _ (.tail _ (.tail _ (.head _)))

theorem isView_hit {k : ObjectKey} {payload : hit.payload.Value}
    (hread : s.body hit k = .ok (.ofPayload payload)) : s.IsView frame k (hitView payload) :=
  isView_of_links hread rfl rfl (fun r => absurd r.isLt (Nat.not_lt_zero _))
    fun r => absurd r.isLt (Nat.not_lt_zero _)

namespace Framed

variable (h : Framed s p spec f p.frame n)

include h

/-- A collection of the frame has the number of its name. -/
theorem stands {name : String} {c : CollectionKey} (hslot : (name, c) ∈ p.frame.slots)
    (id : CollectionId) (hid : eventIds.id? name = some id) {t : DataType} {storage : Storage}
    (hstands : ∃ id, s.Stands c t id storage none) : s.Stands c t id storage none := by
  rcases hstands with ⟨id', config, generation, prepared, hcol⟩
  rcases h.reachable.wellFormed.held f p.frame name c h.frame hslot with ⟨col, hcol', hnumber⟩
  cases hcol.symm.trans hcol'
  -- the table of the frame has one number for the name
  cases hid.symm.trans hnumber
  exact ⟨config, generation, prepared, hcol⟩

/-- The objects at some positions of a collection have sites. -/
theorem hasSites {name : String} {c : CollectionKey} (hslot : (name, c) ∈ p.frame.slots)
    {t : DataType} {first : ObjectKey} {α : Type} {specs : List α} {toBody : α → Body t}
    (howns : s.OwnsFrom c first (specs.map toBody)) {indices : List Nat}
    (hlt : ∀ i ∈ indices, i < specs.length) :
    List.Forall₂ (s.HasSite p.frame) (indices.map (first + ·)) (indices.map (name, ·)) := by
  refine OwnsFrom.hasSites h.reachable.wellFormed ⟨f, h.frame⟩ hslot howns ?_
  rwa [List.length_map]

variable {k : ObjectKey}

theorem isView_cluster {c : ClusterSpec} (hread : s.body cluster k = .ok (c.body p))
    (hhits : ∀ i ∈ c.hits, i < spec.hits.length)
    (hclusters : ∀ i ∈ c.clusters, i < spec.clusters.length) : s.IsView p.frame k c.view := by
  refine isView_of_links hread rfl rfl ?_ fun r => absurd r.isLt (Nat.not_lt_zero _)
  rintro ⟨_ | _ | r, hr⟩
  · exact ⟨_, rfl, h.hasSites p.mem_hits h.holds.hits hhits⟩
  · exact ⟨_, rfl, h.hasSites p.mem_clusters h.holds.clusters hclusters⟩
  · exact absurd hr (Nat.not_lt.2 (Nat.le_add_left 2 r))

theorem isView_track {t : TrackSpec} (hread : s.body track k = .ok (t.body p))
    (hhits : ∀ i ∈ t.hits, i < spec.hits.length)
    (hseed : ∀ i ∈ t.seed, i < spec.clusters.length) : s.IsView p.frame k t.view := by
  refine isView_of_links hread rfl rfl ?_ ?_
  · rintro ⟨_ | r, hr⟩
    · exact ⟨_, rfl, h.hasSites p.mem_hits h.holds.hits hhits⟩
    · exact absurd hr (Nat.not_lt.2 (Nat.le_add_left 1 r))
  · rintro ⟨_ | r, hr⟩
    · change Option.Rel _ (t.seed.map (p.clusters + ·)) (t.seed.map (clustersName, ·))
      rcases hsome : t.seed with _ | i
      · exact .none
      · refine .some (OwnsFrom.hasSite h.reachable.wellFormed ⟨f, h.frame⟩ p.mem_clusters
          h.holds.clusters ?_)
        rw [List.length_map]
        exact hseed i hsome
    · exact absurd hr (Nat.not_lt.2 (Nat.le_add_left 1 r))

/-- The frame shows the event that it was built from. -/
theorem viewFrame (hrange : spec.InRange) : s.viewFrame p.frame = .ok spec.views := by
  have hhits := viewCollection_owned
    (h.stands p.mem_hits ⟨1⟩ (by decide) h.holds.hits.stands)
    (OwnsFrom.mapM_viewObject h.holds.hits p.frame fun k payload _ => isView_hit)
    hitsName
  have hclusters := viewCollection_owned
    (h.stands p.mem_clusters ⟨2⟩ (by decide) h.holds.clusters.stands)
    (OwnsFrom.mapM_viewObject h.holds.clusters p.frame fun k c hc hread =>
      h.isView_cluster hread (hrange.clusters c hc).1 (hrange.clusters c hc).2)
    clustersName
  have htracks := viewCollection_owned
    (h.stands p.mem_tracks ⟨3⟩ (by decide) h.holds.tracks.stands)
    (OwnsFrom.mapM_viewObject h.holds.tracks p.frame fun k t ht hread =>
      h.isView_track hread (hrange.tracks t ht).1 (hrange.tracks t ht).2)
    tracksName
  have hsites : (spec.selected.map (p.tracks + ·)).mapM (fun k => s.siteOf p.frame (some k)) =
      .ok (spec.selected.map (tracksName, ·)) := by
    have hall := h.hasSites p.mem_tracks h.holds.tracks hrange.selected
    exact mapM_eq_ok_iff.2 (hall.imp fun _ _ hsite => hsite.site)
  have hselected := viewCollection_subset
    (h.stands p.mem_selected ⟨4⟩ (by decide) h.holds.selected) hsites selectedName
  exact mapM_eq_ok_iff.2 (.cons hhits (.cons hclusters (.cons htracks (.cons hselected .nil))))

/-- Nothing in the frame waits for resolution. -/
theorem resolved : ∀ slot ∈ p.frame.slots, ∀ col ∈ s.collections.get? slot.2,
    col.isUnresolved = false := by
  intro slot hslot col hcol
  simp only [Places.frame, List.mem_cons, List.not_mem_nil, or_false] at hslot
  rcases hslot with rfl | rfl | rfl | rfl
  · rcases h.holds.hits.stands with ⟨id, hstands⟩
    exact hstands.resolved hcol
  · rcases h.holds.clusters.stands with ⟨id, hstands⟩
    exact hstands.resolved hcol
  · rcases h.holds.tracks.stands with ⟨id, hstands⟩
    exact hstands.resolved hcol
  · rcases h.holds.selected with ⟨id, hstands⟩
    exact hstands.resolved hcol

end Framed

end Detector

end EventModel
