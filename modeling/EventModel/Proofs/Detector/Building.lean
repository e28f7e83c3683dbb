import EventModel.Proofs.Detector.Descriptions
import EventModel.Proofs.Store.Construction

/-!
# Building an event

An event is built from a description exactly if the indices in it are in range
(`rangeChecked_buildSteps`). First all objects are made, and so the keys of each collection are
consecutive; from then on an index stands for a key, and every step fills in the relations of one
object.
-/

namespace EventModel.Detector

open Store

/-! ## Steps -/

variable {s s' : Store} {t u : DataType} {c d : CollectionKey} {first first' : ObjectKey} {i n : Nat}
  {bodies : List (Body t)} {body : Body t} {p : Places}

/-- A handle that is used and dropped leaves nothing but what was done with it. -/
theorem rangeChecked_withHandle {α : Type} {acquire : Action α} {reference : α → Reference}
    {use : α → Action Unit} {p q : Prop} {A : α → Store → Prop} {Q : Store → Prop}
    (hacquire : RangeChecked acquire s p fun h s' =>
      s.target (reference h) = none ∧ s.ProceedsIn s' c ∧ A h s')
    (huse : ∀ h s', A h s' → RangeChecked (use h) s' q fun _ s'' => s'.ProceedsIn s'' c ∧ Q s'')
    (hdrop : ∀ s₁ s₂, (∀ d, s₁.ChangesOnly s₂ d) → s₂.objects.next = s₁.objects.next → Q s₁ → Q s₂) :
    RangeChecked (withHandle acquire reference use) s (p ∧ q) fun _ s' => s.ProceedsIn s' c ∧ Q s' := by
  refine hacquire.bind ?_
  rintro h s₁ - ⟨hnone, hproceeds, hA⟩
  have hrest := (huse h s₁ hA).bind (f := fun _ => drop (reference h)) (q := True)
    (R := fun _ s' => s.ProceedsIn s' c ∧ Q s') ?_
  · exact hrest.congr (and_iff_left trivial)
  · rintro - s₂ - ⟨hproceeds', hQ⟩
    rcases exists_drop (reference h) s₂ with ⟨s₃, hrun, hchanges, hnext, htargets⟩
    have hused := hproceeds.trans hproceeds'
    refine .of_ok hrun ⟨⟨hused.toChangesOnly.trans (hchanges c), ?_⟩, hdrop s₂ s₃ hchanges hnext hQ⟩
    intro r k hr
    -- the handle that is dropped pointed at nothing before it was made
    refine htargets r k ?_ (hused.targets r k hr)
    rintro rfl
    rw [hnone] at hr
    cases hr

theorem rangeChecked_createObject (howns : s.OwnsFrom c first bodies) (hunheld : s.IsUnheld c)
    (hnext : s.objects.next = first + bodies.length) (payload : t.payload.Value) :
    RangeChecked (createObject t c payload) s True fun _ s' => s.ProceedsIn s' c ∧
      s'.OwnsFrom c first (bodies ++ [.ofPayload payload]) ∧
      s'.objects.next = first + bodies.length + 1 := by
  rcases howns.create hunheld hnext payload with ⟨s₁, hrun, hproceeds, howns₁, hnext₁⟩
  rw [hnext] at hnext₁
  have hcreate : RangeChecked (create t c payload) s True fun handle s' =>
      s.target handle.toReference = none ∧ s.ProceedsIn s' c ∧
        s'.OwnsFrom c first (bodies ++ [.ofPayload payload]) ∧
        s'.objects.next = first + bodies.length + 1 :=
    .of_ok hrun ⟨target_next s, hproceeds, howns₁, hnext₁⟩
  refine (rangeChecked_withHandle (q := True) hcreate
    (fun _ s' hs' => .of_ok rfl ⟨.refl s' c, hs'⟩) ?_).congr (and_iff_left trivial)
  rintro s₁ s₂ hchanges hsame ⟨howns, hnext⟩
  exact ⟨howns.stays hchanges, hsame.trans hnext⟩

/-- Objects that are created one after the other have consecutive keys. -/
theorem exists_forEach_createObject (howns : s.OwnsFrom c first ([] : List (Body t)))
    (hunheld : s.IsUnheld c) (hnext : s.objects.next = first) (payloads : List t.payload.Value) :
    ∃ s', forEach (createObject t c) payloads s = (.ok (), s') ∧ s.ProceedsIn s' c ∧
      s'.OwnsFrom c first (payloads.map Body.ofPayload) ∧
      s'.objects.next = first + payloads.length := by
  have hloop := RangeChecked.forEach (f := createObject t c) (r := fun _ => True) (s := s)
    (I := fun done _ s' => s.ProceedsIn s' c ∧ s'.OwnsFrom c first (done.map Body.ofPayload) ∧
      s'.objects.next = first + done.length) ?_ payloads ⟨.refl s c, howns, hnext⟩
  · rcases hloop.succeeds fun _ _ => trivial with ⟨_, s', hrun, hdone⟩
    exact ⟨s', hrun, hdone⟩
  · rintro done payload rest s₁ ⟨hproceeds, howns, hnext⟩
    have hlength : (done.map Body.ofPayload).length = done.length := List.length_map _
    refine (rangeChecked_createObject howns (hproceeds.isUnheld hunheld) (hlength ▸ hnext)
      payload).imp ?_
    rintro - s₂ - ⟨hproceeds', howns', hnext'⟩
    refine ⟨hproceeds.trans hproceeds', ?_, ?_⟩
    · rwa [List.map_append, List.map_singleton]
    · rw [hnext', hlength, List.length_append, List.length_singleton, Nat.add_assoc]

/-- An object of a collection is used by a handle. -/
theorem rangeChecked_withObject {use : Handle u → Action Unit} {q : Prop} {Q : Store → Prop}
    {targets : List (Body u)} (htargets : s.OwnsFrom d first' targets) (index : Nat)
    (huse : ∀ (handle : Handle u) s', s.ProceedsIn s' c → (∀ d, s.ChangesOnly s' d) →
      s'.target handle.toReference = some (first' + index) → index < targets.length →
      RangeChecked (use handle) s' q fun _ s'' => s'.ProceedsIn s'' c ∧ Q s'')
    (hdrop : ∀ s₁ s₂, (∀ d, s₁.ChangesOnly s₂ d) → s₂.objects.next = s₁.objects.next → Q s₁ → Q s₂) :
    RangeChecked (withHandle (getObject u d index) (·.toReference) use) s
      (index < targets.length ∧ q) fun _ s' => s.ProceedsIn s' c ∧ Q s' := by
  refine rangeChecked_withHandle (A := fun handle s' => s.ProceedsIn s' c ∧
    (∀ d, s.ChangesOnly s' d) ∧ s'.target handle.toReference = some (first' + index) ∧
    index < targets.length) ((htargets.getObject index).imp ?_) ?_ hdrop
  · rintro handle s₁ hindex ⟨rfl, rfl⟩
    rcases htargets.exists_object hindex with ⟨target, htarget⟩
    have hproceeds := fun d => proceedsIn_withHandle htarget rfl d
    exact ⟨target_next s, hproceeds c, hproceeds c, fun d => (hproceeds d).toChangesOnly,
      target_withHandle s _, hindex⟩
  · rintro handle s₁ ⟨hproceeds, hchanges, htarget, hindex⟩
    exact huse handle s₁ hproceeds hchanges htarget hindex

section Fill

variable {handle : MutableHandle t} {relation : Nat} {r : Fin t.toMany.length}

/-- An index is replaced by the object that it stands for. -/
theorem rangeChecked_relate {lists : Vector (List ObjectKey) t.toMany.length}
    {targets : List (Body u)} (hr : r.val = relation) (htype : u.name = (t.toMany.get r).target)
    (howns : s.OwnsFrom c first bodies) (htarget : s.target handle.toReference = some (first + i))
    (hbody : bodies[i]? = some body) (hlists : body.toMany = .lists lists)
    (htargets : s.OwnsFrom d first' targets) (index : Nat) :
    RangeChecked (relate handle relation u d index) s (index < targets.length) fun _ s' =>
      s.ProceedsIn s' c ∧ s'.OwnsFrom c first (bodies.set i
        { body with toMany := .lists (setAt lists r (lists[r] ++ [first' + index])) }) := by
  refine (rangeChecked_withObject (q := True) htargets index ?_ ?_).congr (and_iff_left trivial)
  · intro other s₁ hproceeds hchanges hother hindex
    rcases (htargets.stays hchanges).exists_object hindex with ⟨target, ho⟩
    rcases (howns.stays hchanges).addRelated (hproceeds.targets _ _ htarget) hbody hlists
      hr hother ho rfl htype with ⟨s₂, hrun, hresult⟩
    exact .of_ok hrun hresult
  · intro s₁ s₂ hchanges _ howns
    exact howns.stays hchanges

/-- Indices are replaced by the objects that they stand for. The targets stay in place as the relation
grows, also if they belong to the same collection. -/
theorem rangeChecked_forEach_relate {lists : Vector (List ObjectKey) t.toMany.length}
    (hr : r.val = relation) (htype : u.name = (t.toMany.get r).target)
    (howns : s.OwnsFrom c first bodies) (htarget : s.target handle.toReference = some (first + i))
    (hbody : bodies[i]? = some body) (hlists : body.toMany = .lists lists)
    (htargets : ∀ s' (bodies' : List (Body t)), bodies'.length = bodies.length →
      s.ProceedsIn s' c → s'.OwnsFrom c first bodies' →
        ∃ targets : List (Body u), targets.length = n ∧ s'.OwnsFrom d first' targets)
    (indices : List Nat) :
    RangeChecked (forEach (relate handle relation u d) indices) s (∀ j ∈ indices, j < n) fun _ s' =>
      s.ProceedsIn s' c ∧ s'.OwnsFrom c first (bodies.set i
        { body with
          toMany := .lists (setAt lists r (lists[r] ++ indices.map (first' + ·))) }) := by
  have hlt := (List.getElem?_eq_some_iff.1 hbody).1
  -- the list has grown by the targets of the indices that are done
  refine RangeChecked.forEach (I := fun done _ s' => s.ProceedsIn s' c ∧
    s'.OwnsFrom c first (bodies.set i
      { body with toMany := .lists (setAt lists r (lists[r] ++ done.map (first' + ·))) }))
    ?_ indices ⟨.refl s c, ?_⟩
  · rintro done index rest s₁ ⟨hproceeds, howns₁⟩
    rcases htargets s₁ _ List.length_set hproceeds howns₁ with ⟨targets, rfl, htargets₁⟩
    refine (rangeChecked_relate hr htype howns₁ (hproceeds.targets _ _ htarget)
      (List.getElem?_set_self hlt) rfl htargets₁ index).imp ?_
    rintro - s₂ - ⟨hproceeds', howns₂⟩
    refine ⟨hproceeds.trans hproceeds', ?_⟩
    rw [List.set_set, setAt_setAt, getElem_setAt, if_pos rfl, List.append_assoc] at howns₂
    rwa [List.map_append, List.map_singleton]
  -- with none done, the object is set to what it was
  · have hsame : ({ body with
        toMany := .lists (setAt lists r (lists[r] ++ [].map (first' + ·))) } : Body t) = body := by
      rw [List.map_nil, List.append_nil, setAt_self, ← hlists]
    rw [hsame, ← (List.getElem?_eq_some_iff.1 hbody).2, List.set_getElem_self]
    exact howns

end Fill

/-- A handle to the object at a position fills it. -/
theorem rangeChecked_withMutable {use : MutableHandle t → Action Unit} {q : Prop}
    {filled : Body t} (howns : s.OwnsFrom c first bodies) (hbody : bodies[i]? = some body)
    (huse : ∀ (handle : MutableHandle t) s', s.ProceedsIn s' c → (∀ d, s.ChangesOnly s' d) →
      s'.OwnsFrom c first bodies → s'.target handle.toReference = some (first + i) →
      RangeChecked (use handle) s' q fun _ s'' =>
        s'.ProceedsIn s'' c ∧ s''.OwnsFrom c first (bodies.set i filled)) :
    RangeChecked (withHandle (getMutable t c i) (·.toReference) use) s q fun _ s' =>
      s.ProceedsIn s' c ∧ s'.OwnsFrom c first (bodies.set i filled) := by
  have hlt := (List.getElem?_eq_some_iff.1 hbody).1
  have hproceeds := fun d => proceedsIn_withHandle (howns.object hbody) rfl d
  have hget : RangeChecked (getMutable t c i) s True fun handle s' =>
      s.target handle.toReference = none ∧ s.ProceedsIn s' c ∧ s.ProceedsIn s' c ∧
        (∀ d, s.ChangesOnly s' d) ∧ s'.target handle.toReference = some (first + i) :=
    .of_ok (howns.getMutable hlt) ⟨target_next s, hproceeds c, hproceeds c,
      fun d => (hproceeds d).toChangesOnly, target_withHandle s _⟩
  refine (rangeChecked_withHandle hget ?_ ?_).congr (and_iff_right trivial)
  · rintro handle s₁ ⟨hproceeds, hchanges, htarget⟩
    exact huse handle s₁ hproceeds hchanges (howns.stays hchanges) htarget
  · intro s₁ s₂ hchanges _ howns
    exact howns.stays hchanges

section Stage

variable {hits : List (Body hit)} {clusters : List (Body cluster)} {tracks : List (Body track)}
  {selected : List ObjectKey}

theorem rangeChecked_fillCluster {spec : ClusterSpec}
    (hhits : s.OwnsFrom p.collections.hits p.hits hits)
    (hclusters : s.OwnsFrom p.collections.clusters p.clusters clusters)
    (hbody : clusters[i]? = some (.ofPayload spec.payload)) :
    RangeChecked (fillCluster p.collections i spec) s
      ((∀ j ∈ spec.hits, j < hits.length) ∧ ∀ j ∈ spec.clusters, j < clusters.length)
      fun _ s' => s.ProceedsIn s' p.collections.clusters ∧
        s'.OwnsFrom p.collections.clusters p.clusters (clusters.set i (spec.body p)) := by
  have hlt := (List.getElem?_eq_some_iff.1 hbody).1
  refine rangeChecked_withMutable hclusters hbody ?_
  intro handle s₁ hproceeds hchanges hclusters₁ htarget
  have hhits₁ := hhits.stays hchanges
  -- the hits are in another collection, which stays as it is
  refine (rangeChecked_forEach_relate (r := ⟨0, by decide⟩) (n := hits.length) rfl rfl hclusters₁
    htarget hbody rfl (fun s₂ _ _ hproceeds₂ _ => ⟨hits, rfl,
      hhits₁.changesOnly hproceeds₂.toChangesOnly (by simp [Places.collections])⟩) _).bind ?_
  rintro - s₂ - ⟨hproceeds₂, hclusters₂⟩
  -- the clusters are in the same collection, which still has as many
  refine ((rangeChecked_forEach_relate (r := ⟨1, by decide⟩) (n := clusters.length) rfl rfl hclusters₂
    (hproceeds₂.targets _ _ htarget) (List.getElem?_set_self hlt) rfl
    (fun s₃ bodies hlength _ howns => ⟨bodies, hlength.trans List.length_set, howns⟩)
    spec.clusters).bind (q := True) (f := fun _ => setMembers handle 0 spec.weights) ?_).congr
    (and_iff_left trivial)
  rintro - s₃ - ⟨hproceeds₃, hclusters₃⟩
  rw [List.set_set] at hclusters₃
  have hproceeds₁₃ := hproceeds₂.trans hproceeds₃
  rcases hclusters₃.setMembers (m := ⟨0, by decide⟩) (hproceeds₁₃.targets _ _ htarget)
    (List.getElem?_set_self hlt) rfl spec.weights with ⟨s₄, hrun, hproceeds₄, hclusters₄⟩
  rw [List.set_set] at hclusters₄
  exact .of_ok hrun ⟨hproceeds₁₃.trans hproceeds₄, hclusters₄⟩

theorem rangeChecked_fillTrack {spec : TrackSpec}
    (hhits : s.OwnsFrom p.collections.hits p.hits hits)
    (hclusters : s.OwnsFrom p.collections.clusters p.clusters clusters)
    (htracks : s.OwnsFrom p.collections.tracks p.tracks tracks)
    (hbody : tracks[i]? = some (.ofPayload spec.payload)) :
    RangeChecked (fillTrack p.collections i spec) s
      ((∀ j ∈ spec.hits, j < hits.length) ∧ ∀ j ∈ spec.seed, j < clusters.length)
      fun _ s' => s.ProceedsIn s' p.collections.tracks ∧
        s'.OwnsFrom p.collections.tracks p.tracks (tracks.set i (spec.body p)) := by
  have hlt := (List.getElem?_eq_some_iff.1 hbody).1
  refine rangeChecked_withMutable htracks hbody ?_
  intro handle s₁ hproceeds hchanges htracks₁ htarget
  have hhits₁ := hhits.stays hchanges
  -- hits and clusters are in other collections than tracks, and stay as they are
  refine (rangeChecked_forEach_relate (r := ⟨0, by decide⟩) (n := hits.length) rfl rfl htracks₁
    htarget hbody rfl (fun s₂ _ _ hproceeds₂ _ => ⟨hits, rfl,
      hhits₁.changesOnly hproceeds₂.toChangesOnly (by simp [Places.collections])⟩) _).bind ?_
  rintro - s₂ - ⟨hproceeds₂, htracks₂⟩
  have hclusters₂ := (hclusters.stays hchanges).changesOnly hproceeds₂.toChangesOnly
    (by simp [Places.collections])
  rcases spec with ⟨payload, indices, _ | seed⟩
  · exact (RangeChecked.of_ok rfl ⟨hproceeds₂, htracks₂⟩).congr (by simp)
  · have hseed : RangeChecked (withHandle (getObject cluster p.collections.clusters seed)
        (·.toReference) fun target => setSingle handle 0 target.toReference) s₂
        (seed < clusters.length ∧ True) fun _ s' => s₂.ProceedsIn s' p.collections.tracks ∧
          s'.OwnsFrom p.collections.tracks p.tracks
            (tracks.set i (TrackSpec.body p ⟨payload, indices, some seed⟩)) := by
      refine rangeChecked_withObject hclusters₂ seed ?_ fun _ _ hchanges _ htracks =>
        htracks.stays hchanges
      intro target s₃ hproceeds₃ hchanges₃ htarget₃ hindex
      rcases (hclusters₂.stays hchanges₃).exists_object hindex with ⟨body, ho⟩
      rcases (htracks₂.stays hchanges₃).setSingle (r := ⟨0, by decide⟩)
        (hproceeds₃.targets _ _ (hproceeds₂.targets _ _ htarget)) (List.getElem?_set_self hlt) rfl
        htarget₃ ho rfl rfl with ⟨s₄, hrun, hproceeds₄, htracks₄⟩
      rw [List.set_set] at htracks₄
      exact .of_ok hrun ⟨hproceeds₄, htracks₄⟩
    refine (hseed.imp ?_).congr (by simp)
    rintro - s' - ⟨hproceeds', htracks'⟩
    exact ⟨hproceeds₂.trans hproceeds', htracks'⟩

theorem rangeChecked_select (htracks : s.OwnsFrom p.collections.tracks p.tracks tracks)
    (hselected : s.PointsAt p.collections.selected track selected)
    (hunheld : s.IsUnheld p.collections.selected) (index : Nat) :
    RangeChecked (select p.collections index) s (index < tracks.length) fun _ s' =>
      s.ProceedsIn s' p.collections.selected ∧
        s'.PointsAt p.collections.selected track (selected ++ [p.tracks + index]) := by
  refine (rangeChecked_withObject (q := True) htracks index ?_ fun _ _ hchanges _ hselected =>
    hselected.stays hchanges).congr (and_iff_left trivial)
  intro handle s₁ hproceeds hchanges htarget hindex
  rcases (htracks.stays hchanges).exists_object hindex with ⟨body, ho⟩
  rcases (hselected.stays hchanges).push (hproceeds.isUnheld hunheld) htarget ho
    with ⟨s₂, hrun, hresult⟩
  exact .of_ok hrun hresult

end Stage

/-! ## All steps -/

/-- The collections of an event hold these objects. -/
structure Holds (s : Store) (p : Places) (hits : List (Body hit)) (clusters : List (Body cluster))
    (tracks : List (Body track)) (selected : List ObjectKey) : Prop where
  hits : s.OwnsFrom p.collections.hits p.hits hits
  clusters : s.OwnsFrom p.collections.clusters p.clusters clusters
  tracks : s.OwnsFrom p.collections.tracks p.tracks tracks
  selected : s.PointsAt p.collections.selected track selected

/-- The collections hold these objects and are in no frame yet. -/
structure Stage (s : Store) (p : Places) (hits : List (Body hit)) (clusters : List (Body cluster))
    (tracks : List (Body track)) (selected : List ObjectKey) : Prop
    extends Holds s p hits clusters tracks selected where
  reachable : Reachable s
  unheld : ∀ c, p.first ≤ c → s.IsUnheld c

namespace Stage

variable {hits hits' : List (Body hit)} {clusters clusters' : List (Body cluster)}
  {tracks tracks' : List (Body track)} {selected selected' : List ObjectKey}
  (h : Stage s p hits clusters tracks selected)

include h

theorem setHits (hproceeds : s.ProceedsIn s' p.collections.hits)
    (hhits : s'.OwnsFrom p.collections.hits p.hits hits') :
    Stage s' p hits' clusters tracks selected where
  hits := hhits
  clusters := h.clusters.changesOnly hproceeds.toChangesOnly (by simp [Places.collections])
  tracks := h.tracks.changesOnly hproceeds.toChangesOnly (by simp [Places.collections])
  selected := h.selected.changesOnly hproceeds.toChangesOnly (by simp [Places.collections])
  reachable := hproceeds.reachable h.reachable
  unheld c hc := hproceeds.isUnheld (h.unheld c hc)

theorem setClusters (hproceeds : s.ProceedsIn s' p.collections.clusters)
    (hclusters : s'.OwnsFrom p.collections.clusters p.clusters clusters') :
    Stage s' p hits clusters' tracks selected where
  hits := h.hits.changesOnly hproceeds.toChangesOnly (by simp [Places.collections])
  clusters := hclusters
  tracks := h.tracks.changesOnly hproceeds.toChangesOnly (by simp [Places.collections])
  selected := h.selected.changesOnly hproceeds.toChangesOnly (by simp [Places.collections])
  reachable := hproceeds.reachable h.reachable
  unheld c hc := hproceeds.isUnheld (h.unheld c hc)

theorem setTracks (hproceeds : s.ProceedsIn s' p.collections.tracks)
    (htracks : s'.OwnsFrom p.collections.tracks p.tracks tracks') :
    Stage s' p hits clusters tracks' selected where
  hits := h.hits.changesOnly hproceeds.toChangesOnly (by simp [Places.collections])
  clusters := h.clusters.changesOnly hproceeds.toChangesOnly (by simp [Places.collections])
  tracks := htracks
  selected := h.selected.changesOnly hproceeds.toChangesOnly (by simp [Places.collections])
  reachable := hproceeds.reachable h.reachable
  unheld c hc := hproceeds.isUnheld (h.unheld c hc)

theorem setSelected (hproceeds : s.ProceedsIn s' p.collections.selected)
    (hselected : s'.PointsAt p.collections.selected track selected') :
    Stage s' p hits clusters tracks selected' where
  hits := h.hits.changesOnly hproceeds.toChangesOnly (by simp [Places.collections])
  clusters := h.clusters.changesOnly hproceeds.toChangesOnly (by simp [Places.collections])
  tracks := h.tracks.changesOnly hproceeds.toChangesOnly (by simp [Places.collections])
  selected := hselected
  reachable := hproceeds.reachable h.reachable
  unheld c hc := hproceeds.isUnheld (h.unheld c hc)

end Stage

/-! ### Loops -/

/-- Some elements were treated, and the next one is. -/
theorem set_treated {α β : Type} {f g : α → β} (done : List α) (x : α) (rest : List α) :
    (done.map f ++ (x :: rest).map g).set done.length (f x) = (done ++ [x]).map f ++ rest.map g := by
  simp [List.set_append_right]

theorem getElem?_treated {α β : Type} {f g : α → β} (done : List α) (x : α) (rest : List α) :
    (done.map f ++ (x :: rest).map g)[done.length]? = some (g x) := by
  simp

variable {hits : List (Body hit)} {clusters : List (Body cluster)} {tracks : List (Body track)}
  {selected : List ObjectKey}

theorem rangeChecked_fillClusters (specs : List ClusterSpec)
    (h : Stage s p hits (specs.map fun spec => .ofPayload spec.payload) tracks selected) :
    RangeChecked (forEach (fun (cluster, i) => fillCluster p.collections i cluster) specs.zipIdx) s
      (∀ spec ∈ specs, (∀ j ∈ spec.hits, j < hits.length) ∧ ∀ j ∈ spec.clusters, j < specs.length)
      fun _ s' => Stage s' p hits (specs.map (·.body p)) tracks selected := by
  -- clusters relate to clusters: as many as there are in all, filled or not, can be chosen from
  have hloop := RangeChecked.forEach_zipIdx (s := s)
    (f := fun cluster i => fillCluster p.collections i cluster)
    (r := fun spec : ClusterSpec =>
      (∀ j ∈ spec.hits, j < hits.length) ∧ ∀ j ∈ spec.clusters, j < specs.length)
    (I := fun done rest s' => done.length + rest.length = specs.length ∧
      Stage s' p hits (done.map (·.body p) ++ rest.map fun spec => .ofPayload spec.payload)
        tracks selected) ?_ specs ⟨Nat.zero_add _, h⟩
  · refine hloop.imp ?_
    rintro - s' - ⟨-, hdone⟩
    rwa [List.map_nil, List.append_nil] at hdone
  · rintro done spec rest s₁ ⟨hcount, hstage⟩
    have hfill := rangeChecked_fillCluster hstage.hits hstage.clusters (getElem?_treated done spec rest)
    rw [List.length_append, List.length_map, List.length_map, hcount] at hfill
    refine hfill.imp ?_
    rintro - s₂ - ⟨hproceeds, hclusters⟩
    rw [set_treated] at hclusters
    refine ⟨?_, hstage.setClusters hproceeds hclusters⟩
    rw [List.length_append, List.length_singleton, ← hcount, List.length_cons]
    omega

theorem rangeChecked_fillTracks (specs : List TrackSpec)
    (h : Stage s p hits clusters (specs.map fun spec => .ofPayload spec.payload) selected) :
    RangeChecked (forEach (fun (track, i) => fillTrack p.collections i track) specs.zipIdx) s
      (∀ spec ∈ specs, (∀ j ∈ spec.hits, j < hits.length) ∧ ∀ j ∈ spec.seed, j < clusters.length)
      fun _ s' => Stage s' p hits clusters (specs.map (·.body p)) selected := by
  have hloop := RangeChecked.forEach_zipIdx (s := s)
    (f := fun track i => fillTrack p.collections i track)
    (r := fun spec : TrackSpec =>
      (∀ j ∈ spec.hits, j < hits.length) ∧ ∀ j ∈ spec.seed, j < clusters.length)
    (I := fun done rest s' => Stage s' p hits clusters
      (done.map (·.body p) ++ rest.map fun spec => .ofPayload spec.payload) selected) ?_ specs h
  · refine hloop.imp ?_
    intro _ s' _ hdone
    rwa [List.map_nil, List.append_nil] at hdone
  · intro done spec rest s₁ hstage
    refine (rangeChecked_fillTrack hstage.hits hstage.clusters hstage.tracks
      (getElem?_treated done spec rest)).imp ?_
    rintro - s₂ - ⟨hproceeds, htracks⟩
    rw [set_treated] at htracks
    exact hstage.setTracks hproceeds htracks

theorem rangeChecked_selectAll (indices : List Nat) (h : Stage s p hits clusters tracks []) :
    RangeChecked (forEach (select p.collections) indices) s (∀ j ∈ indices, j < tracks.length)
      fun _ s' => Stage s' p hits clusters tracks (indices.map (p.tracks + ·)) := by
  refine RangeChecked.forEach
    (I := fun done _ s' => Stage s' p hits clusters tracks (done.map (p.tracks + ·))) ?_ indices h
  intro done index rest s₁ hstage
  refine (rangeChecked_select hstage.tracks hstage.selected
    (hstage.unheld _ (Nat.le_add_right _ _)) index).imp ?_
  rintro - s₂ - ⟨hproceeds, hselected⟩
  rw [List.map_append, List.map_singleton]
  exact hstage.setSelected hproceeds hselected

/-! ### From the first step to the last -/

/-- Where an event is that is built in a store. -/
def EventSpec.places (spec : EventSpec) (s : Store) : Places where
  first := s.collections.next
  hits := s.objects.next
  clusters := s.objects.next + spec.hits.length
  tracks := s.objects.next + spec.hits.length + spec.clusters.length

theorem exists_newCollections (hs : Reachable s) (spec : EventSpec) : ∃ s₁ s₂ s₃ s₄,
    newCollection hit false {} s = (.ok (spec.places s).collections.hits, s₁) ∧
      newCollection cluster false {} s₁ = (.ok (spec.places s).collections.clusters, s₂) ∧
      newCollection track false {} s₂ = (.ok (spec.places s).collections.tracks, s₃) ∧
      newCollection track true {} s₃ = (.ok (spec.places s).collections.selected, s₄) ∧
      Stage s₄ (spec.places s) [] [] [] [] ∧ s₄.objects = s.objects := by
  rcases exists_newCollection hit false s with ⟨s₁, hrun₁, hhits, hproceeds₁, hnext₁, hobjects₁⟩
  rcases exists_newCollection cluster false s₁ with ⟨s₂, hrun₂, hclusters, hproceeds₂, hnext₂, hobjects₂⟩
  rcases exists_newCollection track false s₂ with ⟨s₃, hrun₃, htracks, hproceeds₃, hnext₃, hobjects₃⟩
  rcases exists_newCollection track true s₃ with ⟨s₄, hrun₄, hselected, hproceeds₄, hnext₄, hobjects₄⟩
  have hkey₁ : s₁.collections.next = (spec.places s).collections.clusters := hnext₁
  have hkey₂ : s₂.collections.next = (spec.places s).collections.tracks := by
    rw [hnext₂, hnext₁]
    rfl
  have hkey₃ : s₃.collections.next = (spec.places s).collections.selected := by
    rw [hnext₃, hnext₂, hnext₁]
    rfl
  rw [hkey₁] at hrun₂ hclusters hproceeds₂
  rw [hkey₂] at hrun₃ htracks hproceeds₃
  rw [hkey₃] at hrun₄ hselected hproceeds₄
  refine ⟨s₁, s₂, s₃, s₄, hrun₁, hrun₂, hrun₃, hrun₄, ⟨⟨?_, ?_, ?_, ⟨_, hselected⟩⟩, ?_, ?_⟩, ?_⟩
  · exact (((hhits.ownsFrom _).changesOnly hproceeds₂.toChangesOnly
      (by simp [Places.collections, EventSpec.places])).changesOnly hproceeds₃.toChangesOnly
      (by simp [Places.collections, EventSpec.places])).changesOnly hproceeds₄.toChangesOnly
      (by simp [Places.collections, EventSpec.places])
  · exact ((hclusters.ownsFrom _).changesOnly hproceeds₃.toChangesOnly
      (by simp [Places.collections])).changesOnly hproceeds₄.toChangesOnly
      (by simp [Places.collections])
  · exact (htracks.ownsFrom _).changesOnly hproceeds₄.toChangesOnly (by simp [Places.collections])
  · exact hproceeds₄.reachable (hproceeds₃.reachable (hproceeds₂.reachable (hproceeds₁.reachable hs)))
  · intro c hc
    exact hproceeds₄.isUnheld (hproceeds₃.isUnheld (hproceeds₂.isUnheld (hproceeds₁.isUnheld
      (isUnheld_of_next_le hs.wellFormed hc))))
  · rw [hobjects₄, hobjects₃, hobjects₂, hobjects₁]

theorem exists_createObjects {spec : EventSpec} {s₀ : Store}
    (h : Stage s (spec.places s₀) [] [] [] []) (hobjects : s.objects = s₀.objects) : ∃ s₁ s₂ s₃,
    forEach (createObject hit (spec.places s₀).collections.hits) spec.hits s = (.ok (), s₁) ∧
      forEach (createObject cluster (spec.places s₀).collections.clusters)
        (spec.clusters.map (·.payload)) s₁ = (.ok (), s₂) ∧
      forEach (createObject track (spec.places s₀).collections.tracks)
        (spec.tracks.map (·.payload)) s₂ = (.ok (), s₃) ∧
      Stage s₃ (spec.places s₀) (spec.hits.map .ofPayload)
        (spec.clusters.map fun spec => .ofPayload spec.payload)
        (spec.tracks.map fun spec => .ofPayload spec.payload) [] := by
  have hnext : s.objects.next = (spec.places s₀).hits := congrArg Arena.next hobjects
  rcases exists_forEach_createObject h.hits (h.unheld _ (Nat.le_refl _)) hnext spec.hits
    with ⟨s₁, hrun₁, hproceeds₁, hhits, hnext₁⟩
  have h₁ := h.setHits hproceeds₁ hhits
  rcases exists_forEach_createObject h₁.clusters (h₁.unheld _ (Nat.le_add_right _ _)) hnext₁
    (spec.clusters.map (·.payload)) with ⟨s₂, hrun₂, hproceeds₂, hclusters, hnext₂⟩
  have h₂ := h₁.setClusters hproceeds₂ hclusters
  rw [List.length_map] at hnext₂
  rcases exists_forEach_createObject h₂.tracks (h₂.unheld _ (Nat.le_add_right _ _)) hnext₂
    (spec.tracks.map (·.payload)) with ⟨s₃, hrun₃, hproceeds₃, htracks, -⟩
  have h₃ := h₂.setTracks hproceeds₃ htracks
  rw [List.map_map, List.map_map] at h₃
  exact ⟨s₁, s₂, s₃, hrun₁, hrun₂, hrun₃, h₃⟩

/-- The collections of an event hold what a description says. -/
def HoldsEvent (s : Store) (p : Places) (spec : EventSpec) : Prop :=
  Holds s p (spec.hits.map .ofPayload) (spec.clusters.map (·.body p)) (spec.tracks.map (·.body p))
    (spec.selected.map (p.tracks + ·))

/-- An event is built exactly if the indices of its description are in range. -/
theorem rangeChecked_buildSteps (hs : Reachable s) (spec : EventSpec) :
    RangeChecked (buildSteps spec) s spec.InRange fun e s' => e = (spec.places s).collections ∧
      HoldsEvent s' (spec.places s) spec ∧ Reachable s' ∧
      ∀ c, (spec.places s).first ≤ c → s'.IsUnheld c := by
  rcases exists_newCollections hs spec with ⟨s₁, s₂, s₃, s₄, hrun₁, hrun₂, hrun₃, hrun₄, h₄, hobjects⟩
  rcases exists_createObjects h₄ hobjects with ⟨s₅, s₆, s₇, hrun₅, hrun₆, hrun₇, h₇⟩
  refine .bind_of_ok hrun₁ (.bind_of_ok hrun₂ (.bind_of_ok hrun₃ (.bind_of_ok hrun₄ ?_)))
  refine .bind_of_ok hrun₅ (.bind_of_ok hrun₆ (.bind_of_ok hrun₇ ?_))
  -- the steps up to here cannot fail: the range of an index is checked where it is used
  have hselect : ∀ {s'}, Stage s' (spec.places s) (spec.hits.map .ofPayload)
      (spec.clusters.map (·.body (spec.places s))) (spec.tracks.map (·.body (spec.places s))) [] →
      RangeChecked (forEach (select (spec.places s).collections) spec.selected >>= fun _ =>
        (return (spec.places s).collections : Action EventCollections)) s'
        ((∀ i ∈ spec.selected, i < (spec.tracks.map (·.body (spec.places s))).length) ∧ True)
        fun e s' => e = (spec.places s).collections ∧ HoldsEvent s' (spec.places s) spec ∧
          Reachable s' ∧ ∀ c, (spec.places s).first ≤ c → s'.IsUnheld c := fun h' =>
    (rangeChecked_selectAll spec.selected h').bind fun _ s'' _ h'' =>
      .of_ok rfl ⟨rfl, h''.toHolds, h''.reachable, h''.unheld⟩
  have hfill := (rangeChecked_fillClusters spec.clusters h₇).bind fun _ s' _ h' =>
    (rangeChecked_fillTracks spec.tracks h').bind fun _ s'' _ h'' => hselect h''
  refine hfill.congr ?_
  simp only [List.length_map, and_true]
  exact ⟨fun h => ⟨h.1, h.2.1, h.2.2⟩, fun h => ⟨h.clusters, h.tracks, h.selected⟩⟩

end EventModel.Detector
