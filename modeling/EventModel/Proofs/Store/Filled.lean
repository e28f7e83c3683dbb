import EventModel.Proofs.Store.FrameResolver
import EventModel.Proofs.Store.Restored

/-!
# Reading a frame

A frame that is read is filled with its collections, one after the other, and then resolved. The
collections are new, so those that were in the store before stay as they are.
-/

namespace EventModel.Store

variable {s s' : Store} {t : DataType} {c : CollectionKey} {id : CollectionId} {f : FrameKey}
  {flat : Flat t} {stored : Stored t} {b : Buffers} {registry : Registry} {config : Config}

/-- All collections that were there before are steady. -/
def Extends (s s' : Store) : Prop :=
  ∀ d col, s.collections.get? d = some col → Steady s s' d

theorem Extends.trans {s'' : Store} (h : Extends s s') (h' : Extends s' s'') :
    Extends s s'' := by
  intro d col hcol
  rcases (h d col hcol).collection with ⟨-, col', -, hcol', -⟩
  exact (h d col hcol).trans (h' d col' hcol')

/-! ## Rebuilding one collection -/

theorem extends_withFounded (col : Collection) (bodies : List (Body col.type)) :
    Extends s (s.withFounded col bodies) := by
  intro d old hold
  have hkept : (s.withFounded col bodies).collections.get? d = some old := by
    rw [withFounded_collections]
    exact Arena.get?_insert_of_get? hold
  exact ⟨⟨old, old, hold, hkept, rfl⟩, fun _ _ _ ho _ => withFounded_get?_of_get? ho⟩

theorem stands_withFounded (col : Collection) (bodies : List (Body col.type)) :
    (s.withFounded col bodies).Stands s.collections.next col.type col.id col.storage col.origin := by
  refine stands_of_get? ?_
  rw [withFounded_collections]
  exact Arena.get?_insert_next

/-- The objects of a rebuilt collection have the next keys of the store. -/
theorem owns_withFounded (config : Config) (contents : Contents t) (bodies : List (Body t)) :
    (s.withFounded (rebuiltOwned config id s.objects.next bodies.length contents) bodies).Owns
      s.collections.next ((List.range bodies.length).map (s.objects.next + ·)) bodies where
  length := by simp
  objects i k body hk hbody := by
    rcases getElem?_keys_eq_some (List.getElem?_toArray ▸ hk) with ⟨hlt, rfl⟩
    have heq : bodies[i] = body := (List.getElem?_eq_some_iff.1 hbody).2
    have hposition : Tracking.owned s.collections.next (0 + i) = .owned s.collections.next i := by
      rw [Nat.zero_add]
    rw [← heq, ← hposition]
    exact addOwned_get?_next s.collections.next hlt

/-- Buffers are rebuilt exactly if they hold something, and then what they hold pends. -/
theorem exists_rebuild (htype : b.expectType t = .ok ()) (h : b.Holds t config stored)
    (id : CollectionId) (s : Store) :
    ∃ s', rebuild t b id config s = (.ok s.collections.next, s') ∧
      s'.Pends s.collections.next t id stored ∧ Extends s s' ∧ s'.frames = s.frames := by
  cases h with
  | @owned contents bodies hsubset hdecode =>
    rcases decodeOwned_eq_ok_iff.1 hdecode with ⟨hrelations, hmembers, hcontents, -, hbodies⟩
    rcases Contents.mapM_body_eq_ok_iff.1 hbodies with ⟨hfits, rfl⟩
    refine ⟨_, rebuild_apply_owned htype hsubset hdecode, ?_, extends_withFounded _ _,
      withFounded_frames⟩
    exact .owned (stands_withFounded _ _) (owns_withFounded config contents _) hfits
      (Contents.isRead_of_decode hcontents).singles
  | @subset ids hsubset hdecode =>
    refine ⟨_, rebuild_apply_subset htype hsubset hdecode, ?_, extends_withFounded _ _,
      withFounded_frames⟩
    exact .subset (stands_withFounded (rebuiltSubset t config id ids) [])

theorem holds_of_rebuild (hrun : rebuild t b id config s = (.ok c, s')) :
    b.expectType t = .ok () ∧ ∃ stored, b.Holds t config stored := by
  rcases rebuild_cases t b id config s with ⟨e, herror⟩ | ⟨htype, hbuffers⟩
  · rw [herror] at hrun
    cases hrun
  · rcases hbuffers with ⟨ids, hsubset, hdecode⟩ | ⟨contents, bodies, hsubset, hdecode⟩
    · exact ⟨htype, _, .subset hsubset hdecode⟩
    · exact ⟨htype, _, .owned hsubset hdecode⟩

/-- A rebuilt collection pends with what its buffers hold. -/
theorem exists_pends_of_rebuild (hrun : rebuild t b id config s = (.ok c, s')) :
    ∃ stored, b.Holds t config stored ∧ s'.Pends c t id stored := by
  rcases holds_of_rebuild hrun with ⟨htype, stored, hholds⟩
  rcases exists_rebuild htype hholds id s with ⟨rebuilt, hrebuilt, hpends, -⟩
  cases hrun.symm.trans hrebuilt
  exact ⟨stored, hholds, hpends⟩

/-- What a normal collection is rebuilt to. -/
theorem exists_contents_of_rebuild (hsubset : b.subset = false)
    (hrun : rebuild t b id config s = (.ok c, s')) :
    ∃ contents : Contents t, contents.IsRead b ∧
      decodeOwned t b config = .ok (contents, contents.rows.map Row.body) ∧
      c = s.collections.next ∧
      s' = s.withFounded
        (rebuiltOwned config id s.objects.next (contents.rows.map Row.body).length contents)
        (contents.rows.map Row.body) := by
  rcases rebuild_cases t b id config s
    with ⟨e, herror⟩ | ⟨htype, ⟨ids, htrue, -⟩ | ⟨contents, bodies, -, hdecode⟩⟩
  · cases hrun.symm.trans herror
  · cases hsubset.symm.trans htrue
  · cases hrun.symm.trans (rebuild_apply_owned htype hsubset hdecode)
    rcases decodeOwned_eq_ok_iff.1 hdecode with ⟨hrelations, hmembers, hcontents, -, hbodies⟩
    rcases Contents.mapM_body_eq_ok_iff.1 hbodies with ⟨-, rfl⟩
    exact ⟨contents, Contents.isRead_of_decode hcontents, hdecode, rfl, rfl⟩

/-- A rebuilt normal collection keeps the columns under its number, and owns an object for each
row. -/
theorem exists_owns_of_rebuild (hsubset : b.subset = false)
    (hrun : rebuild t b id config s = (.ok c, s')) :
    ∃ (contents : Contents t) (keys : List ObjectKey), contents.IsRead b ∧
      s'.Stands c t id (.owned keys.toArray)
        (some ⟨id, .stored contents.toMany contents.toOne⟩) ∧
      s'.Owns c keys (contents.rows.map Row.body) := by
  rcases exists_contents_of_rebuild hsubset hrun with ⟨contents, hread, -, rfl, rfl⟩
  exact ⟨contents, _, hread, stands_withFounded _ _, owns_withFounded config contents _⟩

/-- What a subset collection is rebuilt to. -/
theorem exists_ids_of_rebuild (hsubset : b.subset = true)
    (hrun : rebuild t b id config s = (.ok c, s')) :
    ∃ ids, decodeSubset t b = .ok ids ∧ c = s.collections.next ∧
      s' = s.withFounded (rebuiltSubset t config id ids) [] := by
  rcases rebuild_cases t b id config s
    with ⟨e, herror⟩ | ⟨htype, ⟨ids, -, hids⟩ | ⟨contents, bodies, hfalse, -⟩⟩
  · cases hrun.symm.trans herror
  · cases hrun.symm.trans (rebuild_apply_subset htype hsubset hids)
    exact ⟨ids, hids, rfl, rfl⟩
  · cases hsubset.symm.trans hfalse

/-! ## Putting it into a frame -/

theorem Stands.renumber {storage : Storage} {origin : Option (Origin t)}
    (h : s.Stands c t id storage origin) (id : CollectionId) :
    (s.modifyCollection c fun col => { col with id }.touch).Stands c t id storage origin := by
  rcases h with ⟨config, generation, prepared, hcol⟩
  refine ⟨config, generation + 1, none, ?_⟩
  rw [modifyCollection_collections, Arena.get?_modify_self hcol]
  rfl

theorem Pends.renumber (h : s.Pends c t id stored) (id : CollectionId) :
    (s.modifyCollection c fun col => { col with id }.touch).Pends c t id stored := by
  cases h with
  | owned hstands howns hfits hsingles =>
    exact .owned (hstands.renumber id) ⟨howns.length, howns.objects⟩ hfits hsingles
  | subset hpending => exact .subset (Stands.renumber hpending id)

theorem Pends.modifyFrame (h : s.Pends c t id stored) (g : Frame → Frame) :
    (s.modifyFrame f g).Pends c t id stored := by
  cases h with
  | owned hstands howns hfits hsingles =>
    exact .owned hstands ⟨howns.length, howns.objects⟩ hfits hsingles
  | subset hpending => exact .subset hpending

/-- A collection that is put into a frame gets a new place there, and pends as it did. -/
theorem exists_put (hpends : s.Pends c t id stored) {frame : Frame} {name : String}
    (hframe : s.frames.get? f = some frame) (haccept : frame.accept name = .ok (id, frame.ids)) :
    ∃ s', put f name c s = (.ok id, s') ∧ s'.Pends c t id stored ∧
      s'.frames.get? f = some (frame.push name id c) ∧
      ∀ d col, d ≠ c → s.collections.get? d = some col → Steady s s' d := by
  refine ⟨_, put_apply_of_ok c hframe haccept, (hpends.renumber id).modifyFrame _, ?_, ?_⟩
  · exact Arena.get?_modify_self hframe _
  · intro d col hd hcol
    refine ⟨⟨col, col, hcol, ?_, rfl⟩, fun _ _ _ ho _ => ho⟩
    exact (Arena.get?_modify_ne hd.symm _).trans hcol

/-- The entry of a frame's flat form becomes this collection, for a reader with this registry. -/
structure Takes (registry : Registry) (ids : IdTable) (config : Config)
    (entry : String × Buffers) (e : StoredCollection) : Prop where
  name : entry.1 = e.name
  id : ids.id? e.name = some e.id
  type : registry.find? entry.2.type = some e.type
  stored : entry.2.Holds e.type config e.stored

theorem Takes.expectType {ids : IdTable} {entry : String × Buffers} {e : StoredCollection}
    (h : Takes registry ids config entry e) : entry.2.expectType e.type = .ok () := by
  have hname : e.type.name = entry.2.type := by
    simpa [Registry.find?] using List.find?_some h.type
  exact if_pos hname.symm

/-- The reader builds what the entry becomes. -/
theorem Takes.exists_build {ids : IdTable} {entry : String × Buffers} {e : StoredCollection}
    (h : Takes registry ids config entry e) (s : Store) :
    ∃ s', build registry entry.2 e.id config s = (.ok s.collections.next, s') ∧
      s'.Pends s.collections.next e.type e.id e.stored ∧ Extends s s' ∧ s'.frames = s.frames := by
  rcases exists_rebuild h.expectType h.stored e.id s with ⟨s', hrebuild, hpends⟩
  refine ⟨s', ?_, hpends⟩
  unfold build
  rw [h.type]
  exact hrebuild

theorem putAll_cons (f : FrameKey) (registry : Registry) (config : Config) {frame : Frame}
    (hframe : s.frames.get? f = some frame) {name : String} (hid : frame.ids.id? name = some id)
    (b : Buffers) (rest : List (String × Buffers)) :
    putAll f registry config ((name, b) :: rest) s =
      (build registry b id config >>= fun c => put f name c >>= fun _ =>
        putAll f registry config rest) s := by
  rw [putAll, get_bind_apply, bind_apply, ask_apply, frame_eq_ok_iff.2 hframe]
  dsimp only
  rw [hid]

/-- Collections with distinct names can be put into a frame that knows their names. -/
theorem exists_putAll {collections : List (String × Buffers)} {entries : List StoredCollection}
    {frame : Frame} {ids : IdTable} (hframe : s.frames.get? f = some frame)
    (hsound : frame.IsSound) (hids : frame.ids = ids)
    (htakes : List.Forall₂ (Takes registry ids config) collections entries)
    (hnames : (frame.names ++ entries.map (·.name)).Nodup) :
    ∃ s' frame' slots, putAll f registry config collections s = (.ok (), s') ∧
      s'.frames.get? f = some frame' ∧ frame'.ids = ids ∧ frame'.parameters = frame.parameters ∧
      frame'.slots = frame.slots ++ slots ∧ List.Forall₂ s'.PendsAs slots entries ∧
      Extends s s' := by
  -- on the entries that are left; the frame holds those before them
  induction htakes generalizing s frame with
  | nil =>
    exact ⟨s, frame, [], rfl, hframe, hids, rfl, (List.append_nil _).symm, .nil,
      fun d col hcol => .refl hcol⟩
  | @cons entry e collections entries hentry _ ih =>
    rcases entry with ⟨name, b⟩
    cases (hentry.name : name = e.name)
    have hid : frame.ids.id? e.name = some e.id := hids ▸ hentry.id
    rcases hentry.exists_build s with ⟨s₁, hbuild, hpends, hextends, hframes⟩
    have hframe₁ : s₁.frames.get? f = some frame := by rw [hframes, hframe]
    have hfresh : e.name ∉ frame.names := by
      intro hmem
      exact (List.nodup_append.1 hnames).2.2 e.name hmem e.name (by simp) rfl
    have haccept := hsound.accept_of_id? hfresh hid
    rcases exists_put hpends hframe₁ haccept with ⟨s₂, hput, hpends₂, hframe₂, hothers⟩
    have hsound₂ := hsound.push haccept s.collections.next
    have hnames₂ : ((frame.push e.name e.id s.collections.next).names ++
        entries.map (·.name)).Nodup := by
      simpa [Frame.names, Frame.push] using hnames
    rcases ih hframe₂ hsound₂ hids hnames₂
      with ⟨s', frame', slots, hrun, hframe', hids', hparameters, hslots, hall, hextends'⟩
    have hextends₂ : Extends s s₂ := by
      intro d col hcol
      have hd : d ≠ s.collections.next := Nat.ne_of_lt (Arena.lt_next_of_get? hcol)
      have hsteady := hextends d col hcol
      rcases hsteady.collection with ⟨-, col₁, -, hcol₁, -⟩
      exact hsteady.trans (hothers d col₁ hd hcol₁)
    rcases hpends₂.exists_collection with ⟨col, hcol, -⟩
    -- what is put later leaves the collection as it is
    have hkept := hpends₂.steady (hextends' _ col hcol)
    refine ⟨s', frame', (e.name, s.collections.next) :: slots, ?_, hframe', hids', hparameters, ?_,
      .cons ⟨rfl, hkept⟩ hall, hextends₂.trans hextends'⟩
    · rw [putAll_cons f registry config hframe hid, bind_apply_of_ok hbuild,
        bind_apply_of_ok hput]
      exact hrun
    · rw [hslots, Frame.push]
      simp

/-- Before the rest is put into a frame, the first collection was rebuilt and put into it. -/
theorem exists_takes_of_putAll_cons {name : String} {b : Buffers} {rest : List (String × Buffers)}
    {frame : Frame} (hframe : s.frames.get? f = some frame)
    (hrun : putAll f registry config ((name, b) :: rest) s = (.ok (), s')) :
    ∃ e, Takes registry frame.ids config (name, b) e ∧ e.name = name ∧
      frame.accept name = .ok (e.id, frame.ids) ∧ ∃ s₂,
        s₂.frames.get? f = some (frame.push name e.id s.collections.next) ∧
        putAll f registry config rest s₂ = (.ok (), s') := by
  rcases hid : frame.ids.id? name with _ | id
  · rw [putAll, get_bind_apply, bind_apply, ask_apply, frame_eq_ok_iff.2 hframe] at hrun
    dsimp only at hrun
    rw [hid] at hrun
    cases hrun
  rw [putAll_cons f registry config hframe hid] at hrun
  rcases bind_eq_ok hrun with ⟨c, s₁, hbuild, hrun⟩
  rcases bind_eq_ok hrun with ⟨id', s₂, hput, hrun⟩
  rcases htype : registry.find? b.type with _ | t
  · rw [build, htype] at hbuild
    cases hbuild
  have hrebuild : rebuild t b id config s = (.ok c, s₁) := by rwa [build, htype] at hbuild
  rcases holds_of_rebuild hrebuild with ⟨-, stored, hstored⟩
  have hentry : Takes registry frame.ids config (name, b) ⟨name, id, t, stored⟩ :=
    ⟨rfl, hid, htype, hstored⟩
  rcases hentry.exists_build s with ⟨s₁', hbuild', -, -, hframes⟩
  cases hbuild.symm.trans hbuild'
  have hframe₁ : s₁.frames.get? f = some frame := by rw [hframes, hframe]
  rcases put_cases f name s.collections.next s₁ with
    ⟨e, herror⟩ | ⟨e, herror⟩ | ⟨frame', id₁, ids, hframe', haccept, hok⟩
  · rw [herror] at hput
    cases hput
  · rw [herror] at hput
    cases hput
  · cases hframe₁.symm.trans hframe'
    cases hput.symm.trans hok
    -- the table knows the name already, so it stays the same
    cases (IdTable.add_of_id? hid).symm.trans (Frame.accept_eq_ok_iff.1 haccept).2
    exact ⟨_, hentry, rfl, haccept, _,
      withPut_get?_frame name s.collections.next id hframe₁ frame.ids, hrun⟩

/-- Collections that were put into a frame have distinct names that the frame knows. -/
theorem takes_of_putAll {collections : List (String × Buffers)} {frame : Frame}
    (hframe : s.frames.get? f = some frame) (hsound : frame.IsSound)
    (hrun : putAll f registry config collections s = (.ok (), s')) :
    ∃ entries, List.Forall₂ (Takes registry frame.ids config) collections entries ∧
      (frame.names ++ entries.map (·.name)).Nodup := by
  -- on the entries that are left; the frame holds those before them
  induction collections generalizing s frame with
  | nil => exact ⟨[], .nil, by simpa using hsound.indexed.nodup_names⟩
  | cons entry rest ih =>
    rcases exists_takes_of_putAll_cons hframe hrun with ⟨e, hentry, hname, haccept, s₂, hframe₂, hrest⟩
    rcases ih hframe₂ (hsound.push haccept s.collections.next) hrest
      with ⟨entries, hentries, hnames⟩
    refine ⟨e :: entries, .cons hentry hentries, ?_⟩
    simpa [Frame.names, Frame.push, hname] using hnames

/-! ## Filling and resolving -/

/-- A frame holds no collection twice. -/
theorem WellFormed.keys_nodup (h : WellFormed s) {frame : Frame}
    (hframe : s.frames.get? f = some frame) : (frame.slots.map (·.2)).Nodup := by
  have hslots : frame.slots.Nodup := (h.names f frame hframe).of_map
  refine hslots.map_on ?_
  rintro ⟨name, c⟩ hslot ⟨name', c'⟩ hslot' heq
  cases (heq : c = c')
  rw [(h.holder f frame name f frame name' c hframe hframe hslot hslot').2]

theorem resolveFrame_apply {frame : Frame} (hframe : s.frames.get? f = some frame) :
    resolveFrame f s =
      forEach (setReferences frame.resolver) (frame.slots.map (·.2)) s := by
  rw [resolveFrame, get_bind_apply, bind_apply, ask_apply, frame_eq_ok_iff.2 hframe]

section ReadFrame

variable {data : FrameData}

/-- What a flat form of a frame holds, for a reader with this registry. -/
structure Fills (registry : Registry) (config : Config) (data : FrameData)
    (entries : List StoredCollection) : Prop where
  takes : List.Forall₂ (Takes registry data.ids config) data.collections entries
  names : (entries.map (·.name)).Nodup

/-- Before it is resolved, the frame that is read holds collections that pend. -/
structure IsFilled (s : Store) (f : FrameKey) (data : FrameData) (frame : Frame)
    (entries : List StoredCollection) : Prop where
  wellFormed : WellFormed s
  held : s.frames.get? f = some frame
  ids : frame.ids = data.ids
  parameters : frame.parameters = data.parameters
  pends : List.Forall₂ s.PendsAs frame.slots entries

theorem Fills.exists_filled {entries : List StoredCollection} (h : WellFormed s)
    (hids : data.ids.Built) (hfills : Fills registry config data entries) :
    ∃ s₁ frame, s₁.IsFilled s.frames.next data frame entries ∧
      readFrameSteps data registry config s =
        (resolveFrame s.frames.next >>= fun _ => pure s.frames.next) s₁ := by
  have hframe := withNewFrame_get? (s := s) config data
  rcases exists_putAll hframe (Frame.isSound_of_slots_nil rfl rfl rfl hids) rfl hfills.takes
    (by simpa [Frame.names] using hfills.names)
    with ⟨s₁, frame, slots, hrun, hframe₁, hframeIds, hparameters, hslots, hpends, -⟩
  have hwell := (withNewFrame_changes (s := s) config hids).wellFormed h
  have hchanges := putAll_changes_of_ok hwell hrun
  rw [List.nil_append] at hslots
  subst hslots
  refine ⟨s₁, frame, ⟨hchanges.wellFormed hwell, hframe₁, hframeIds, hparameters, hpends⟩, ?_⟩
  rw [readFrameSteps_apply, bind_apply_of_ok hrun]

theorem readFrame_eq_ok_iff {f : FrameKey} :
    readFrame data registry config s = (.ok f, s') ↔
      readFrameSteps data registry config s = (.ok f, s') := by
  unfold readFrame transaction
  rcases readFrameSteps data registry config s with ⟨e | f', s''⟩
  · constructor
    · intro hfalse
      cases hfalse
    · intro hfalse
      cases hfalse
  · exact Iff.rfl

theorem fills_of_readFrame (hids : data.ids.Built)
    (hread : readFrame data registry config s = (.ok f, s')) :
    ∃ entries, Fills registry config data entries := by
  rw [readFrame_eq_ok_iff, readFrameSteps_apply] at hread
  rcases bind_eq_ok hread with ⟨⟨⟩, s₁, hput, -⟩
  have hframe := withNewFrame_get? (s := s) config data
  rcases takes_of_putAll hframe (Frame.isSound_of_slots_nil rfl rfl rfl hids) hput
    with ⟨entries, htakes, hnames⟩
  exact ⟨entries, htakes, by simpa [Frame.names] using hnames⟩

/-- A frame was read if the resolution of what fills it succeeded. -/
theorem Fills.resolved {entries : List StoredCollection} (h : WellFormed s)
    (hids : data.ids.Built) (hfills : Fills registry config data entries)
    (hread : readFrame data registry config s = (.ok f, s')) :
    ∃ s₁ frame, s₁.IsFilled f data frame entries ∧
      forEach (setReferences frame.resolver) (frame.slots.map (·.2)) s₁ = (.ok (), s') := by
  rcases hfills.exists_filled h hids with ⟨s₁, frame, hfilled, hsteps⟩
  rw [readFrame_eq_ok_iff, hsteps] at hread
  rcases bind_eq_ok hread with ⟨⟨⟩, s₂, hresolve, hpure⟩
  cases hpure
  rw [resolveFrame_apply hfilled.held] at hresolve
  exact ⟨s₁, frame, hfilled, hresolve⟩

/-- A frame that was read holds restored collections. -/
theorem Fills.restored {entries : List StoredCollection} (h : WellFormed s)
    (hids : data.ids.Built) (hfills : Fills registry config data entries)
    (hread : readFrame data registry config s = (.ok f, s')) :
    ∃ frame, s'.frames.get? f = some frame ∧ frame.ids = data.ids ∧
      frame.parameters = data.parameters ∧
      List.Forall₂ (Names (s'.Restored frame.resolver)) frame.slots
        (entries.map StoredCollection.flat) := by
  rcases hfills.resolved h hids hread with ⟨s₁, frame, hfilled, hresolve⟩
  have hnodup := hfilled.wellFormed.keys_nodup hfilled.held
  rcases forEach_setReferences_restored hfilled.wellFormed hfilled.pends hnodup hresolve
    with ⟨hrestored, hwithin⟩
  refine ⟨frame, ?_, hfilled.ids, hfilled.parameters, hrestored⟩
  rw [hwithin.frames, hfilled.held]

/-- A frame can be read if every address finds an object among the collections that pend. -/
theorem Fills.exists_readFrame {entries : List StoredCollection} (h : WellFormed s)
    (hids : data.ids.Built) (hfills : Fills registry config data entries)
    (hfinds : ∀ s₁ frame, IsFilled s₁ s.frames.next data frame entries →
      ∀ e ∈ entries, FindsAll s₁ frame.resolver e.type e.stored) :
    ∃ f s', readFrame data registry config s = (.ok f, s') := by
  rcases hfills.exists_filled h hids with ⟨s₁, frame, hfilled, hsteps⟩
  rcases exists_forEach_setReferences hfilled.wellFormed hfilled.pends
    (hfilled.wellFormed.keys_nodup hfilled.held) (hfinds s₁ frame hfilled) with ⟨s', hresolve⟩
  refine ⟨s.frames.next, s', readFrame_eq_ok_iff.2 ?_⟩
  have hrun : resolveFrame s.frames.next s₁ = (.ok (), s') := by
    rw [resolveFrame_apply hfilled.held]
    exact hresolve
  rw [hsteps, bind_apply_of_ok hrun]
  rfl

/-- The registry knows the types of all collections of a frame that was read. -/
theorem exists_type_of_readFrame (hids : data.ids.Built)
    (hread : readFrame data registry config s = (.ok f, s')) :
    ∀ entry ∈ data.collections, ∃ t, registry.find? entry.2.type = some t := by
  intro entry hentry
  rcases fills_of_readFrame hids hread with ⟨entries, hfills⟩
  rcases exists_right_of_forall₂ hfills.takes hentry with ⟨e, -, he⟩
  exact ⟨e.type, he.type⟩

/-! ## Flat forms -/

variable {entries : List FlatCollection}

/-- What a registry and an id table must know of a flat collection. -/
structure Registered (registry : Registry) (ids : IdTable) (e : FlatCollection) : Prop where
  id : ids.id? e.name = some e.id
  type : registry.find? e.type.name = some e.type
  tiled : e.flat.IsTiled

/-- A frame's flat form holds what its flat collections store. -/
theorem fills_of_registered (hdata : data.collections = entries.map FlatCollection.data)
    (hentries : ∀ e ∈ entries, Registered registry data.ids e)
    (hnames : (entries.map (·.name)).Nodup) (config : Config) :
    Fills registry config data (entries.map FlatCollection.stored) := by
  refine ⟨?_, by simpa [FlatCollection.stored, Function.comp_def] using hnames⟩
  rw [hdata, List.forall₂_map_left_iff, List.forall₂_map_right_iff]
  refine List.forall₂_same.2 ?_
  intro e he
  rcases hentries e he with ⟨hid, htype, htiled⟩
  exact ⟨rfl, hid, (Flat.buffers_type e.flat).symm ▸ htype, Flat.holds htiled config⟩

theorem flat_map_stored (hentries : ∀ e ∈ entries, Registered registry data.ids e) :
    (entries.map FlatCollection.stored).map StoredCollection.flat = entries := by
  rw [List.map_map, List.map_congr_left (g := id), List.map_id]
  exact fun e he => FlatCollection.flat_stored (hentries e he).tiled

/-- A frame that was read from flat collections holds them restored. -/
theorem readFrame_restored (h : WellFormed s) (hids : data.ids.Built)
    (hdata : data.collections = entries.map FlatCollection.data)
    (hentries : ∀ e ∈ entries, Registered registry data.ids e)
    (hnames : (entries.map (·.name)).Nodup)
    (hread : readFrame data registry config s = (.ok f, s')) :
    ∃ frame, s'.frames.get? f = some frame ∧ frame.ids = data.ids ∧
      frame.parameters = data.parameters ∧
      List.Forall₂ (Names (s'.Restored frame.resolver)) frame.slots entries := by
  have hrestored := (fills_of_registered hdata hentries hnames config).restored h hids hread
  rwa [flat_map_stored hentries] at hrestored

/-- Flat collections can be read as a frame if every address finds an object among the collections
that wait. -/
theorem exists_readFrame (h : WellFormed s) (hids : data.ids.Built)
    (hdata : data.collections = entries.map FlatCollection.data)
    (hentries : ∀ e ∈ entries, Registered registry data.ids e)
    (hnames : (entries.map (·.name)).Nodup)
    (hanswers : ∀ s₁ slots, List.Forall₂ (Names (Waits s₁)) slots entries →
      ∀ e ∈ entries, Answers s₁ (s₁.resolverOf (slots.map (·.2))) e.type e.flat)
    (config : Config) : ∃ f s', readFrame data registry config s = (.ok f, s') := by
  refine (fills_of_registered hdata hentries hnames config).exists_readFrame h hids ?_
  intro s₁ frame hfilled _ hstored
  rcases List.mem_map.1 hstored with ⟨e, he, rfl⟩
  rw [resolver_eq_resolverOf hfilled.wellFormed hfilled.held]
  refine (hanswers s₁ frame.slots ?_ e he).findsAll
  have hpends := List.forall₂_map_right_iff.1 hfilled.pends
  refine ((List.forall₂_and_left _ _).2 ⟨hentries, hpends.flip⟩).flip.imp ?_
  rintro slot e ⟨he, hslot⟩
  exact ⟨hslot.name, hslot.collection.waits he.tiled⟩

end ReadFrame

end EventModel.Store
