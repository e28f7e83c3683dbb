import EventModel.Detector.RoundTrip
import EventModel.Proofs.Detector.Built
import EventModel.Proofs.Store.Streamable
import EventModel.Proofs.Stream

/-!
# Events from end to end

A description is built exactly if its indices are in range. The frame that is built holds the event,
and if the columns of the event fit, what the frame is written to comes back, through a stream or
not, as a frame that holds the same event and is written to the same bytes (`event_endToEnd`).
-/

namespace EventModel

namespace Store

variable {s s' : Store} {f : FrameKey} {d : FrameData}

/-- A frame that can be stored is read from the front of a stream. -/
theorem readStream_encode_append {config : StreamConfig} {registry : Registry} (hd : d.Storable)
    (hquiet : d.parameters.IsQuiet)
    (hread : readFrame d registry config.rebuildConfig s = (.ok f, s')) (rest : Bytes) :
    readStream config registry (Stream.encode config d ++ rest) s = (.ok (f, rest), s') := by
  have hstream := Stream.read_encode_append config hd rest
  rw [FrameData.quiet_eq_self hquiet] at hstream
  unfold readStream
  rw [hstream]
  dsimp only
  rw [hread]

theorem writeStream_of_writeFrame (hwrite : (writeFrame f s).1 = .ok d) (config : StreamConfig) :
    writeStream config f s = (.ok (Stream.encode config d), (writeFrame f s).2) := by
  have hrun : writeFrame f s = (.ok d, (writeFrame f s).2) := Prod.ext hwrite rfl
  exact bind_apply_of_ok hrun

end Store

namespace Detector

open Store

variable {s s' : Store} {p : Places} {spec : EventSpec} {f : FrameKey} {frame : Frame} {n : Nat}
  {data : FrameData}

/-! ## What the view of an event says of its frame -/

/-- The column of what shows of some objects is as long as the objects are said to need. -/
theorem sum_views_lt {t : DataType} {α : Type} {specs : List α} {view : α → ObjectView t}
    {shown : ObjectView t → Nat} {length : α → Nat} (hsame : ∀ x, shown (view x) = length x)
    (hlt : (specs.map length).sum < columnLimit) :
    ((specs.map view).map shown).sum < columnLimit := by
  have hmaps : (specs.map view).map shown = specs.map length := by
    rw [List.map_map]
    exact List.map_congr_left fun x _ => hsame x
  rwa [hmaps]

section Views

variable (hmemory : spec.InMemory)

include hmemory

theorem fits_hits : (ContentView.owned (spec.hits.map hitView)).Fits where
  relations r := absurd r.isLt (Nat.not_lt_zero _)
  members m := absurd m.isLt (Nat.not_lt_zero _)
  size := by
    have hhits := hmemory.hits
    rw [ContentView.size, List.length_map]
    omega

theorem fits_clusters (hfit : spec.ColumnsFit) :
    (ContentView.owned (spec.clusters.map ClusterSpec.view)).Fits where
  relations := by
    rintro ⟨_ | _ | r, hr⟩
    · exact sum_views_lt (fun c => show (c.hits.map (hitsName, ·)).length = _ from
        List.length_map _) hfit.clusterHits
    · exact sum_views_lt (fun c => show (c.clusters.map (clustersName, ·)).length = _ from
        List.length_map _) hfit.clusterClusters
    · exact absurd hr (Nat.not_lt.2 (Nat.le_add_left 2 r))
  members := by
    rintro ⟨_ | m, hm⟩
    · exact sum_views_lt (fun c => rfl) hfit.weights
    · exact absurd hm (Nat.not_lt.2 (Nat.le_add_left 1 m))
  size := by
    have hclusters := hmemory.clusters
    rw [ContentView.size, List.length_map]
    omega

theorem fits_tracks (hfit : spec.ColumnsFit) :
    (ContentView.owned (spec.tracks.map TrackSpec.view)).Fits where
  relations := by
    rintro ⟨_ | r, hr⟩
    · exact sum_views_lt (fun t => show (t.hits.map (hitsName, ·)).length = _ from
        List.length_map _) hfit.trackHits
    · exact absurd hr (Nat.not_lt.2 (Nat.le_add_left 1 r))
  members m := absurd m.isLt (Nat.not_lt_zero _)
  size := by
    have htracks := hmemory.tracks
    rw [ContentView.size, List.length_map]
    omega

theorem fits_selected :
    (ContentView.subset (t := track) (spec.selected.map (tracksName, ·))).Fits where
  relations _ := Nat.two_pow_pos 32
  members _ := Nat.two_pow_pos 32
  size := by
    have hselected := hmemory.selected
    rw [ContentView.size, List.length_map]
    omega

/-- The view of an event fits if the columns of the event do. -/
theorem fits_of_mem_views (hfit : spec.ColumnsFit) : ∀ view ∈ spec.views, view.content.Fits := by
  simp only [EventSpec.views, List.forall_mem_cons, List.not_mem_nil, false_imp_iff, implies_true,
    and_true]
  exact ⟨fits_hits hmemory, fits_clusters hmemory hfit, fits_tracks hmemory hfit,
    fits_selected hmemory⟩

/-- The view of an event fits in a stream. -/
theorem streams_of_mem_views : ∀ view ∈ spec.views, Streams view := by
  have hhits := hmemory.hits
  have hclusters := hmemory.clusters
  have htracks := hmemory.tracks
  have hselected := hmemory.selected
  simp only [EventSpec.views, List.forall_mem_cons, List.not_mem_nil, false_imp_iff, implies_true,
    and_true]
  refine ⟨Streams.of_le (k := 48) (by decide) (by decide) (by decide) (by decide) ?_,
    Streams.of_le (k := 48) (by decide) (by decide) (by decide) (by decide) ?_,
    Streams.of_le (k := 48) (by decide) (by decide) (by decide) (by decide) ?_,
    Streams.of_le (k := 16) (by decide) (by decide) (by decide) (by decide) ?_⟩
  all_goals
    rw [ContentView.size, List.length_map]
    omega

end Views

/-- The registry has the types of an event. -/
theorem registered_of_mem_views :
    ∀ view ∈ spec.views, registry.find? view.type.name = some view.type := by
  simp only [EventSpec.views, List.forall_mem_cons, List.not_mem_nil, false_imp_iff, implies_true,
    and_true]
  have hfound : registry.find? hit.name = some hit ∧ registry.find? cluster.name = some cluster ∧
      registry.find? track.name = some track := by decide
  exact ⟨hfound.1, hfound.2.1, hfound.2.2, hfound.2.2⟩

/-! ## There and back -/

/-- The frame holds the event, and is written to these data and to the bytes of their stream. -/
structure Carries (s : Store) (f : FrameKey) (spec : EventSpec) (data : FrameData) : Prop where
  event : ofFrame s f = .ok spec
  written : (writeFrame f s).1 = .ok data
  bytes : ∀ config, (writeStream config f s).1 = .ok (Stream.encode config data)

theorem Carries.of_written (hevent : ofFrame s f = .ok spec)
    (hwritten : (writeFrame f s).1 = .ok data) : Carries s f spec data :=
  ⟨hevent, hwritten, fun config => congrArg Prod.fst (writeStream_of_writeFrame hwritten config)⟩

/-- The data come back as a frame that carries the event, in every store: from the front of a stream,
whatever follows, and from their flat form. -/
structure Survives (spec : EventSpec) (data : FrameData) : Prop where
  stream : ∀ s, Reachable s → ∀ config rest, ∃ f s',
    readStream config registry (Stream.encode config data ++ rest) s = (.ok (f, rest), s') ∧
      Reachable s' ∧ Carries s' f spec data
  reread : ∀ s, Reachable s → ∃ f s', reread data s = (.ok f, s') ∧ Reachable s' ∧
    Carries s' f spec data

theorem Framed.ofFrame_eq (h : Framed s p spec f p.frame n) (hrange : spec.InRange)
    (hmemory : spec.InMemory) : ofFrame s f = .ok spec :=
  ofFrame_of_views h.reachable.wellFormed h.frame (h.viewFrame hrange) hrange hmemory

/-- What the frame of an event is written to comes back, if the columns of the event fit. -/
theorem Framed.exists_survives (h : Framed s p spec f p.frame n) (hrange : spec.InRange)
    (hmemory : spec.InMemory) (hfit : spec.ColumnsFit) :
    ∃ data, Carries s f spec data ∧ Survives spec data := by
  have hviews := h.viewFrame hrange
  have hframe := frame_eq_ok_iff.2 h.frame
  have hclosed : s.IsClosed p.frame :=
    isClosed_of_viewFrame hviews h.reachable.wellFormed (fits_of_mem_views hmemory hfit) h.resolved
  have hregistry : Registers registry s p.frame :=
    registers_of_viewFrame hviews registered_of_mem_views
  rcases exists_writeFrame h.reachable hframe hclosed with ⟨data, hwrite⟩
  have hstorable : data.Storable :=
    storable_of_viewFrame h.reachable hframe hwrite hviews
      (show Wire.ListFits (fun pair => Wire.TextFits pair.1) eventIds.pairs by decide)
      (show 4 < 2 ^ 64 by decide) (streams_of_mem_views hmemory) Parameters.isSorted_empty
      (show (Wire.ParameterBody.ofParameters .empty).Fits by decide)
  have hquiet : data.parameters.IsQuiet := by
    rcases (writeFrame_fst_eq_ok_iff h.reachable).1 hwrite with ⟨_, hsame, -, hparameters, -⟩
    cases hframe.symm.trans hsame
    rw [hparameters]
    exact show Parameters.empty.IsQuiet by decide
  -- both ways back end with the reading of the data, with a configuration of their own
  have hread : ∀ s₂, Reachable s₂ → ∀ config : Config, ∃ g s₃,
      readFrame data registry config s₂ = (.ok g, s₃) ∧ Reachable s₃ ∧ Carries s₃ g spec data := by
    intro s₂ h₂ config
    rcases exists_readsBack h.reachable hframe hclosed hregistry hwrite h₂ config
      with ⟨g, s₃, hread, h₃, ⟨frame', hframe', -, -, view, hview, hview'⟩, hwritten⟩
    -- the frame that is read has the same view, and the view tells which event it holds
    cases hviews.symm.trans hview
    have hevent := ofFrame_of_views h₃.wellFormed (frame_eq_ok_iff.1 hframe') hview' hrange hmemory
    exact ⟨g, s₃, hread, h₃, .of_written hevent hwritten⟩
  refine ⟨data, .of_written (h.ofFrame_eq hrange hmemory) hwrite, ?_, ?_⟩
  · intro s₂ h₂ config rest
    rcases hread s₂ h₂ config.rebuildConfig with ⟨g, s₃, hrun, h₃, hcarries⟩
    exact ⟨g, s₃, readStream_encode_append hstorable hquiet hrun rest, h₃, hcarries⟩
  · intro s₂ h₂
    exact hread s₂ h₂ {}

/-- Events from end to end. A description is built exactly if each of its indices is below the length
of the list that it chooses from; otherwise an index is reported as out of range and nothing changes.
The frame that is built holds the event that was described, bit for bit, for every description that
memory holds. If moreover no column of the event has more elements than positions can say, the frame
is written to data that come back in every store: the frame that is read from their stream, and the
one that is rebuilt from their flat form, holds the same event and is written to the same bytes.
Generated events have all of their indices in range, and columns that fit if there are fewer than 2³²
hits. -/
theorem event_endToEnd (hs : Reachable s) (spec : EventSpec) :
    ((∃ f s', buildFrame spec s = (.ok f, s')) ↔ spec.InRange) ∧
      (¬ spec.InRange → ∃ index len, len ≤ index ∧
        buildFrame spec s = (.error (.outOfRange index len), s)) ∧
      (∀ f s', buildFrame spec s = (.ok f, s') → Reachable s' ∧ (spec.InMemory →
        ofFrame s' f = .ok spec ∧
          (spec.ColumnsFit → ∃ data, Carries s' f spec data ∧ Survives spec data))) ∧
      ∀ n, (generateEvent n).InRange ∧
        (n < columnLimit → (generateEvent n).ColumnsFit ∧ (generateEvent n).InMemory) := by
  have hrefused : ¬ spec.InRange → ∃ index len, len ≤ index ∧
      buildFrame spec s = (.error (.outOfRange index len), s) := buildFrame_eq_error hs
  have hbuilt : ∀ {f s'}, buildFrame spec s = (.ok f, s') → spec.InRange := by
    intro f s' hrun
    by_contra hrange
    rcases hrefused hrange with ⟨index, len, -, herror⟩
    cases hrun.symm.trans herror
  refine ⟨⟨?_, ?_⟩, hrefused, ?_, ?_⟩
  · rintro ⟨f, s', hrun⟩
    exact hbuilt hrun
  · intro hrange
    rcases exists_buildFrame hs hrange with ⟨f, s', hrun, -⟩
    exact ⟨f, s', hrun⟩
  · intro f s' hrun
    have hrange := hbuilt hrun
    rcases exists_buildFrame hs hrange with ⟨_, _, hrun', hframed⟩
    cases hrun.symm.trans hrun'
    refine ⟨hframed.reachable, fun hmemory => ⟨hframed.ofFrame_eq hrange hmemory, ?_⟩⟩
    exact hframed.exists_survives hrange hmemory
  · intro n
    exact ⟨inRange_generateEvent n, fun hn => ⟨columnsFit_generateEvent hn, inMemory_generateEvent hn⟩⟩

theorem event_endToEnd_sampleEvent :
    sampleEvent.InRange ∧ sampleEvent.InMemory ∧ sampleEvent.ColumnsFit ∧
      (∃ f s', buildFrame sampleEvent .empty = (.ok f, s') ∧ ofFrame s' f = .ok sampleEvent ∧
        ∃ data, Carries s' f sampleEvent data ∧ Survives sampleEvent data) ∧
      (∃ index len, len ≤ index ∧ buildFrame { sampleEvent with selected := [1] } .empty =
        (.error (.outOfRange index len), .empty)) ∧
      (generateEvent 100).InRange ∧ (generateEvent 100).ColumnsFit := by
  rcases event_endToEnd Reachable.empty sampleEvent with ⟨hbuilds, -, hcarries, hgenerated⟩
  have hrange : sampleEvent.InRange := by decide
  have hmemory : sampleEvent.InMemory := by decide
  have hfit : sampleEvent.ColumnsFit := by decide
  refine ⟨hrange, hmemory, hfit, ?_, ?_, (hgenerated 100).1, ((hgenerated 100).2 (by decide)).1⟩
  · rcases hbuilds.2 hrange with ⟨f, s', hrun⟩
    rcases (hcarries f s' hrun).2 hmemory with ⟨hevent, hsurvives⟩
    exact ⟨f, s', hrun, hevent, hsurvives hfit⟩
  · exact (event_endToEnd Reachable.empty { sampleEvent with selected := [1] }).2.1 (by decide)

/-! ## The way through a stream -/

theorem storeStep_of_ok {α : Type} {action : Action α} {x : α} (hrun : action s = (.ok x, s')) :
    storeStep action s = (.ok x, s') := by
  unfold storeStep
  rw [hrun]
  rfl

theorem storeQuestion_of_ok {α : Type} {question : Store → Except Error α} {x : α}
    (hanswer : question s = .ok x) : storeQuestion question s = (.ok x, s) := by
  unfold storeQuestion
  rw [hanswer]
  rfl

/-- Nothing is lost of an event that is sent through a stream. -/
theorem exists_roundTrip (hrange : spec.InRange) (hmemory : spec.InMemory)
    (hfit : spec.ColumnsFit) :
    ∃ bytes, roundTrip spec = .ok ⟨bytes, spec, true, spec⟩ := by
  rcases exists_buildFrame Reachable.empty hrange with ⟨f, s₁, hbuild, hframed⟩
  rcases hframed.exists_survives hrange hmemory hfit with ⟨data, hcarries, hsurvives⟩
  have hwrite : writeFrame f s₁ = (.ok data, (writeFrame f s₁).2) := Prod.ext hcarries.written rfl
  have hsend : ((do writeFrame (← buildFrame spec)) : Action FrameData) .empty = _ :=
    (bind_apply_of_ok hbuild).trans hwrite
  rcases hsurvives.stream _ (hframed.reachable.step (.writeFrame f)) {} []
    with ⟨g, s₂, hread, h₂, hcarries₂⟩
  rw [List.append_nil] at hread
  have hagain := writeStream_of_writeFrame hcarries₂.written {}
  rcases hsurvives.reread _ (h₂.step (.writeFrame g)) with ⟨g', s₄, hreread, -, hcarries₄⟩
  refine ⟨Stream.encode {} data, ?_⟩
  have hsteps : roundTripSteps spec .empty =
      (.ok ⟨Stream.encode {} data, spec, true, spec⟩, s₄) := by
    unfold roundTripSteps
    rw [bind_apply_of_ok (storeStep_of_ok hsend)]
    dsimp only
    rw [bind_apply_of_ok (a := ExceptT.mk (readStream {} registry (Stream.encode {} data))) hread,
      bind_apply_of_ok (storeQuestion_of_ok hcarries₂.event),
      bind_apply_of_ok (storeStep_of_ok hagain), bind_apply_of_ok (storeStep_of_ok hreread),
      bind_apply_of_ok (storeQuestion_of_ok hcarries₄.event), beq_self_eq_true]
    rfl
  exact congrArg Prod.fst hsteps

end Detector

end EventModel
