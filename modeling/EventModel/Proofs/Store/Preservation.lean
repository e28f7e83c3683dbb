import EventModel.Proofs.Store.WellFormed

/-!
# Every change keeps a store well-formed

One lemma for each kind of change, and `Change.wellFormed` that collects them.
-/

namespace EventModel.Store

variable {s s' : Store}

/-! ## Quiet changes -/

theorem quiet_withHandle (s : Store) (target : Option ObjectKey) :
    Quiet s (s.withHandle target) where
  objects k := by
    rcases target with _ | target
    · rfl
    · rw [withHandle_some_objects, Arena.get?_modify]
      split
      · simp [Option.map_map, Function.comp_def]
      · rfl
  collections c := by simp

theorem quiet_withoutTarget (s : Store) (h : HandleKey) (k : ObjectKey) :
    Quiet s (s.withoutTarget h k) where
  objects k' := by
    simp only [withoutTarget, modifyObject_objects, Arena.get?_modify]
    split
    · simp [Option.map_map, Function.comp_def]
    · rfl
  collections c := rfl

theorem quiet_drop (r : Reference) (s : Store) : Quiet s (drop r s).2 where
  objects k := by
    rw [drop_objects_get?]
    split
    · simp [Option.map_map, Function.comp_def]
    · rfl
  collections c := by rw [drop_collections]

theorem quiet_advanceOwner (s : Store) (k : ObjectKey) : Quiet s (s.advanceOwner k) where
  objects k' := by simp
  collections c := by
    rw [advanceOwner_get?]
    split
    · rw [Option.map_map]
      rfl
    · rfl

/-- Numbers, prepared buffers and counts of changes are no content. -/
theorem quiet_modifyCollection (s : Store) (serial : Nat) (c : CollectionKey)
    (f : Collection → Collection) (hf : ∀ col, (f col).content = col.content) :
    Quiet s ({ s with serial }.modifyCollection c f) where
  objects k := rfl
  collections d := by
    rw [modifyCollection_collections, Arena.get?_modify]
    split
    · rw [Option.map_map]
      exact congrArg (fun g => Option.map g _) (funext hf)
    · rfl

/-- An object that exists was made. -/
theorem exists_of_existsObject {k : ObjectKey} (h : s.existsObject k = true) :
    ∃ o, s.objects.get? k = some o := by
  rcases ho : s.objects.get? k with _ | o
  · simp [existsObject, ho] at h
  · exact ⟨o, rfl⟩

theorem handles_withHandle (h : ObjectsWellFormed s) {target : Option ObjectKey}
    (htarget : ∀ k, target = some k → ∃ o, s.objects.get? k = some o) (key : HandleKey)
    (k : ObjectKey) (hk : (s.withHandle target).handles.get? key = some (some k)) :
    ∃ o, s.objects.get? k = some o := by
  rw [withHandle_handles] at hk
  rcases Arena.get?_insert_eq_some hk with hold | ⟨-, hnew⟩
  · exact h.handles key k hold
  · exact htarget k hnew.symm

/-! ## Frames -/

/-- Frames depend on the existence and the number of the collections that they hold. -/
theorem FramesWellFormed.of_collections (h : FramesWellFormed s) (hframes : s'.frames = s.frames)
    (hcol : ∀ f frame name c col, s.frames.get? f = some frame → (name, c) ∈ frame.slots →
      s.collections.get? c = some col → ∃ col', s'.collections.get? c = some col' ∧ col'.id = col.id) :
    FramesWellFormed s' where
  held f frame name c hframe hslot := by
    rw [hframes] at hframe
    obtain ⟨col, hget, hid⟩ := h.held f frame name c hframe hslot
    obtain ⟨col', hget', hid'⟩ := hcol f frame name c col hframe hslot hget
    exact ⟨col', hget', by rw [hid, hid']⟩
  indexed f frame hframe := by
    rw [hframes] at hframe
    exact h.indexed f frame hframe
  ids f frame hframe := by
    rw [hframes] at hframe
    exact h.ids f frame hframe
  holder f frame name f' frame' name' c hframe hframe' := by
    rw [hframes] at hframe hframe'
    exact h.holder f frame name f' frame' name' c hframe hframe'

theorem FramesWellFormed.of_eq (h : FramesWellFormed s) (hframes : s'.frames = s.frames)
    (hcollections : s'.collections = s.collections) : FramesWellFormed s' := by
  refine h.of_collections hframes ?_
  intro f frame name c col _ _ hcol
  exact ⟨col, by rw [hcollections, hcol], rfl⟩

theorem FramesWellFormed.advanceOwner (h : FramesWellFormed s) (k : ObjectKey) :
    FramesWellFormed (s.advanceOwner k) := by
  refine h.of_collections (by simp) ?_
  intro f frame name c col _ _ hcol
  rw [advanceOwner_get?, hcol]
  split
  · exact ⟨col.advance, rfl, rfl⟩
  · exact ⟨col, rfl, rfl⟩

/-- A change of a collection that keeps its number concerns no frame. -/
theorem FramesWellFormed.modifyCollection (h : FramesWellFormed s) (serial : Nat)
    (c : CollectionKey) (f : Collection → Collection) (hf : ∀ col, (f col).id = col.id) :
    FramesWellFormed ({ s with serial }.modifyCollection c f) := by
  refine h.of_collections rfl ?_
  intro _ frame name d col _ _ hcol
  rw [modifyCollection_collections, Arena.get?_modify, hcol]
  split
  · exact ⟨f col, rfl, hf col⟩
  · exact ⟨col, rfl, rfl⟩

theorem isLoose_iff {c : CollectionKey} :
    s.isLoose c = true ↔ (∃ col, s.collections.get? c = some col) ∧
      ∀ f frame name, s.frames.get? f = some frame → (name, c) ∉ frame.slots := by
  simp only [isLoose, Bool.and_eq_true, Bool.not_eq_true', Arena.any_eq_false_iff,
    List.any_eq_false, beq_iff_eq, Option.isSome_iff_exists]
  constructor
  · rintro ⟨hcol, hall⟩
    exact ⟨hcol, fun f frame name hframe hslot => hall f frame hframe (name, c) hslot rfl⟩
  · rintro ⟨hcol, hall⟩
    refine ⟨hcol, fun f frame hframe slot hslot heq => ?_⟩
    subst heq
    exact hall f frame slot.1 hframe hslot

/-- A change of a loose collection concerns no frame. -/
theorem FramesWellFormed.of_loose (h : FramesWellFormed s) {c : CollectionKey}
    (hloose : s.isLoose c = true) (hframes : s'.frames = s.frames)
    (hother : ∀ d, d ≠ c → s'.collections.get? d = s.collections.get? d) : FramesWellFormed s' := by
  refine h.of_collections hframes ?_
  intro f frame name d col hframe hslot hcol
  by_cases hd : d = c
  · subst hd
    exact absurd hslot ((isLoose_iff.1 hloose).2 f frame name hframe)
  · exact ⟨col, by rw [hother d hd, hcol], rfl⟩

theorem FramesWellFormed.of_insert (h : FramesWellFormed s) (hframes : s'.frames = s.frames)
    {col : Collection} (hcol : s'.collections = s.collections.insert col) : FramesWellFormed s' := by
  refine h.of_collections hframes ?_
  intro f frame name c col' _ _ hget
  exact ⟨col', by rw [hcol]; exact Arena.get?_insert_of_get? hget, rfl⟩

/-- The invariant as far as it is about one frame. -/
structure FrameFits (s : Store) (frame : Frame) : Prop where
  held : ∀ name c, (name, c) ∈ frame.slots →
    ∃ col, s.collections.get? c = some col ∧ frame.ids.id? name = some col.id
  indexed : frame.IsIndexed
  ids : frame.ids.Built

theorem FramesWellFormed.frameFits (h : FramesWellFormed s) {f : FrameKey} {frame : Frame}
    (hframe : s.frames.get? f = some frame) : s.FrameFits frame where
  held name c := h.held f frame name c hframe
  indexed := h.indexed f frame hframe
  ids := h.ids f frame hframe

theorem FramesWellFormed.of_parts
    (hframes : ∀ f frame, s.frames.get? f = some frame → s.FrameFits frame)
    (hholder : ∀ f frame name f' frame' name' c, s.frames.get? f = some frame →
      s.frames.get? f' = some frame' → (name, c) ∈ frame.slots → (name', c) ∈ frame'.slots →
        f = f' ∧ name = name') : FramesWellFormed s where
  held f frame name c hframe := (hframes f frame hframe).held name c
  indexed f frame hframe := (hframes f frame hframe).indexed
  ids f frame hframe := (hframes f frame hframe).ids
  holder := hholder

theorem frameFits_new (s : Store) (config : Config) : s.FrameFits { config } :=
  ⟨nofun, Frame.isIndexed_of_slots_nil rfl rfl rfl, .empty⟩

theorem FramesWellFormed.newFrame (h : FramesWellFormed s) (config : Config) :
    FramesWellFormed { s with frames := s.frames.insert { config } } := by
  refine .of_parts ?frames ?holder
  case frames =>
    intro f frame hframe
    rcases Arena.get?_insert_eq_some hframe with hold | ⟨-, rfl⟩
    · exact ⟨(h.frameFits hold).held, (h.frameFits hold).indexed, (h.frameFits hold).ids⟩
    · exact frameFits_new _ config
  case holder =>
    intro f frame name f' frame' name' c hframe hframe' hslot hslot'
    rcases Arena.get?_insert_eq_some hframe with hold | ⟨-, rfl⟩
    · rcases Arena.get?_insert_eq_some hframe' with hold' | ⟨-, rfl⟩
      · exact h.holder f frame name f' frame' name' c hold hold' hslot hslot'
      · cases hslot'
    · cases hslot

theorem FramesWellFormed.eraseFrame (h : FramesWellFormed s) (f : FrameKey) :
    FramesWellFormed { s with frames := s.frames.erase f } where
  held f' frame name c hframe := h.held f' frame name c (Arena.get?_erase_eq_some hframe).2
  indexed f' frame hframe := h.indexed f' frame (Arena.get?_erase_eq_some hframe).2
  ids f' frame hframe := h.ids f' frame (Arena.get?_erase_eq_some hframe).2
  holder f₁ frame₁ name₁ f₂ frame₂ name₂ c h₁ h₂ :=
    h.holder f₁ frame₁ name₁ f₂ frame₂ name₂ c (Arena.get?_erase_eq_some h₁).2
      (Arena.get?_erase_eq_some h₂).2

/-- A frame may lose collections if what is left of it fits. -/
theorem FramesWellFormed.modifyFrame (h : FramesWellFormed s) {f : FrameKey} {g : Frame → Frame}
    (hslots : ∀ frame, (g frame).slots.Sublist frame.slots)
    (hfits : ∀ frame, s.frames.get? f = some frame → s.FrameFits (g frame)) :
    FramesWellFormed (s.modifyFrame f g) := by
  refine .of_parts ?frames ?holder
  case frames =>
    intro f' frame hframe
    rcases Arena.get?_modify_eq_some hframe with ⟨rfl, old, hold, rfl⟩ | ⟨-, hold⟩
    · exact ⟨(hfits old hold).held, (hfits old hold).indexed, (hfits old hold).ids⟩
    · exact ⟨(h.frameFits hold).held, (h.frameFits hold).indexed, (h.frameFits hold).ids⟩
  case holder =>
    intro f₁ frame₁ name₁ f₂ frame₂ name₂ c h₁ h₂ hslot₁ hslot₂
    have hold : ∀ f' frame name, (s.modifyFrame f g).frames.get? f' = some frame →
        (name, c) ∈ frame.slots → ∃ old, s.frames.get? f' = some old ∧ (name, c) ∈ old.slots := by
      intro f' frame name hframe hslot
      rcases Arena.get?_modify_eq_some hframe with ⟨rfl, old, hold, rfl⟩ | ⟨-, hold⟩
      · exact ⟨old, hold, (hslots old).subset hslot⟩
      · exact ⟨frame, hold, hslot⟩
    obtain ⟨old₁, hold₁, hmem₁⟩ := hold f₁ frame₁ name₁ h₁ hslot₁
    obtain ⟨old₂, hold₂, hmem₂⟩ := hold f₂ frame₂ name₂ h₂ hslot₂
    exact h.holder f₁ old₁ name₁ f₂ old₂ name₂ c hold₁ hold₂ hmem₁ hmem₂

section PutSlot

variable {f : FrameKey} {frame : Frame} {name : String} {c : CollectionKey} {col : Collection}
  {ids : IdTable}

theorem FrameFits.isNumbered (h : s.FrameFits frame) : frame.IsNumbered := by
  intro name hname
  obtain ⟨⟨name, c⟩, hslot, rfl⟩ := List.mem_map.1 hname
  obtain ⟨col, -, hid⟩ := h.held name c hslot
  exact ⟨col.id, hid⟩

/-- A frame takes up a collection under a name that it does not have yet, and adds the name to its
table. -/
theorem FrameFits.putSlot (h : s.FrameFits frame) (hcol : s.collections.get? c = some col)
    (hfresh : frame.contains name = false) (hids : frame.ids.add name = .ok (col.id, ids)) :
    s.FrameFits ({ frame with ids }.push name col.id c) where
  held name' c' hslot := by
    rcases List.mem_append.1 hslot with hold | hnew
    -- a name that is added changes no number
    · obtain ⟨col', hcol', hid⟩ := h.held name' c' hold
      exact ⟨col', hcol', IdTable.id?_add_of_id? hids hid⟩
    · cases List.mem_singleton.1 hnew
      exact ⟨col, hcol, IdTable.id?_add_self hids⟩
  indexed :=
    h.indexed.push h.ids h.isNumbered (h.indexed.contains_eq_false_iff.1 hfresh) hids c
  ids := h.ids.add hids

theorem numberOf_eq (hcol : s.collections.get? c = some col) : s.numberOf c = col.id := by
  rw [numberOf, hcol]

theorem FrameFits.removeAt (h : s.FrameFits frame) (position : Nat) :
    s.FrameFits (frame.removeAt position s.numberOf) where
  held name c hslot := h.held name c ((List.eraseIdx_sublist _ _).subset hslot)
  indexed := by
    refine h.indexed.removeAt h.ids ?_ position
    intro name c hslot
    obtain ⟨col, hcol, hid⟩ := h.held name c hslot
    rw [numberOf_eq hcol, hid]
  ids := h.ids

/-- A frame without collections can take up any table. -/
theorem FrameFits.adoptIds (h : s.FrameFits frame) (hempty : frame.slots = []) (hids : ids.Built)
    (parameters : Parameters) : s.FrameFits { frame with ids, parameters } where
  held name c hslot := by
    change (name, c) ∈ frame.slots at hslot
    rw [hempty] at hslot
    cases hslot
  indexed := by
    refine ⟨h.indexed.byName, fun id i => ?_⟩
    rw [h.indexed.byId]
    simp [hempty]
  ids := hids

/-- The slots of a frame are its old ones, but for the new one. -/
theorem slot_putSlot_cases (hframe : s.frames.get? f = some frame) {f' : FrameKey}
    {frame' : Frame} {name' : String} {c' : CollectionKey}
    (hframe' : (s.modifyFrame f fun frame => { frame with ids }.push name col.id c).frames.get? f' =
      some frame')
    (hslot : (name', c') ∈ frame'.slots) :
    (∃ old, s.frames.get? f' = some old ∧ (name', c') ∈ old.slots) ∨
      (f' = f ∧ name' = name ∧ c' = c) := by
  rcases Arena.get?_modify_eq_some hframe' with ⟨rfl, old, hold, rfl⟩ | ⟨-, hold⟩
  · cases hframe.symm.trans hold
    rcases List.mem_append.1 hslot with hslot | hslot
    · exact .inl ⟨frame, hframe, hslot⟩
    · cases List.mem_singleton.1 hslot
      exact .inr ⟨rfl, rfl, rfl⟩
  · exact .inl ⟨frame', hold, hslot⟩

theorem FramesWellFormed.putSlot (h : FramesWellFormed s) (hloose : s.isLoose c = true)
    (hcol : s.collections.get? c = some col) (hframe : s.frames.get? f = some frame)
    (hfresh : frame.contains name = false) (hids : frame.ids.add name = .ok (col.id, ids)) :
    FramesWellFormed (s.modifyFrame f fun frame => { frame with ids }.push name col.id c) := by
  have hunheld := (isLoose_iff.1 hloose).2
  refine .of_parts ?frames ?holder
  case frames =>
    intro f' frame' hframe'
    rcases Arena.get?_modify_eq_some hframe' with ⟨rfl, old, hold, rfl⟩ | ⟨-, hold⟩
    · cases hframe.symm.trans hold
      have hfits := (h.frameFits hframe).putSlot hcol hfresh hids
      exact ⟨hfits.held, hfits.indexed, hfits.ids⟩
    · exact ⟨(h.frameFits hold).held, (h.frameFits hold).indexed, (h.frameFits hold).ids⟩
  case holder =>
    intro f₁ frame₁ name₁ f₂ frame₂ name₂ c' h₁ h₂ hslot₁ hslot₂
    rcases slot_putSlot_cases hframe h₁ hslot₁ with ⟨old₁, hold₁, hmem₁⟩ | ⟨rfl, rfl, rfl⟩
    · rcases slot_putSlot_cases hframe h₂ hslot₂ with ⟨old₂, hold₂, hmem₂⟩ | ⟨-, -, rfl⟩
      · exact h.holder f₁ old₁ name₁ f₂ old₂ name₂ c' hold₁ hold₂ hmem₁ hmem₂
      · exact absurd hmem₁ (hunheld f₁ old₁ name₁ hold₁)
    · rcases slot_putSlot_cases hframe h₂ hslot₂ with ⟨old₂, hold₂, hmem₂⟩ | ⟨rfl, rfl, -⟩
      · exact absurd hmem₂ (hunheld f₂ old₂ name₂ hold₂)
      · exact ⟨rfl, rfl⟩

end PutSlot

/-- Changes of frames concern no object. -/
theorem ObjectsWellFormed.of_frames (h : ObjectsWellFormed s) (frames : Arena Frame) :
    ObjectsWellFormed { s with frames } where
  listed := h.listed
  owner := h.owner
  slots := h.slots
  links k o ho := ⟨(h.links k o ho).toMany, (h.links k o ho).toOne⟩
  columns := h.columns
  windows := h.windows
  handles := h.handles

/-! ## Bodies -/

theorem body_eq_ok_iff {t : DataType} {k : ObjectKey} {body : Body t} :
    s.body t k = .ok body ↔
      ∃ tracking, s.objects.get? k = some ⟨t, tracking, body⟩ ∧ tracking ≠ .released := by
  constructor
  · intro h
    rcases hk : s.objects.get? k with _ | ⟨type, tracking, inner⟩
    · simp [Store.body, object, hk, bind, Except.bind] at h
    · by_cases hreleased : tracking = .released
      · simp [Store.body, object, hk, bind, Except.bind, Object.isReleased, hreleased, throw,
          throwThe, MonadExceptOf.throw] at h
      · by_cases htype : type = t
        · subst htype
          simp [Store.body, object, hk, bind, Except.bind, Object.isReleased, hreleased,
            Object.bodyAs] at h
          subst h
          exact ⟨tracking, rfl, hreleased⟩
        · simp [Store.body, object, hk, bind, Except.bind, Object.isReleased, hreleased,
            Object.bodyAs, htype] at h
  · rintro ⟨tracking, hk, hreleased⟩
    simp [Store.body, object, hk, bind, Except.bind, Object.isReleased, hreleased, Object.bodyAs]

theorem setBody_get?_self {t : DataType} {k : ObjectKey} {tracking : Tracking} {old : Body t}
    (h : s.objects.get? k = some ⟨t, tracking, old⟩) (new : Body t) :
    (s.setBody k new).objects.get? k = some ⟨t, tracking, new⟩ := by
  rw [setBody_objects, Arena.get?_modify_self h]
  simp

theorem setBody_get?_ne {t : DataType} {k other : ObjectKey} (h : k ≠ other) (new : Body t) :
    (s.setBody k new).objects.get? other = s.objects.get? other := by
  rw [setBody_objects, Arena.get?_modify_ne h]

/-- An object keeps its type and its place when its body is replaced. -/
theorem setBody_get? {t : DataType} {k other : ObjectKey} {o : Object} {old : Body t}
    (hold : s.body t k = .ok old) (new : Body t) (ho : s.objects.get? other = some o) :
    ∃ o', (s.setBody k new).objects.get? other = some o' ∧ o'.type = o.type ∧
      o'.tracking = o.tracking := by
  obtain ⟨tracking, hk, -⟩ := body_eq_ok_iff.1 hold
  by_cases hother : k = other
  · subst hother
    rw [hk] at ho
    cases ho
    exact ⟨_, setBody_get?_self hk new, rfl, rfl⟩
  · exact ⟨o, by rw [setBody_get?_ne hother, ho], rfl, rfl⟩

/-- An object whose body was replaced is the old one with the new body; others are as before. -/
theorem setBody_get?_eq_some {t : DataType} {k other : ObjectKey} {o' : Object} {old : Body t}
    (hold : s.body t k = .ok old) (new : Body t)
    (ho' : (s.setBody k new).objects.get? other = some o') :
    (k = other ∧ ∃ tracking, s.objects.get? other = some ⟨t, tracking, old⟩ ∧
      tracking ≠ .released ∧ o' = ⟨t, tracking, new⟩) ∨
    (k ≠ other ∧ s.objects.get? other = some o') := by
  obtain ⟨tracking, hk, hreleased⟩ := body_eq_ok_iff.1 hold
  by_cases hother : k = other
  · subst hother
    rw [setBody_get?_self hk] at ho'
    cases ho'
    exact .inl ⟨rfl, tracking, hk, hreleased, rfl⟩
  · rw [setBody_get?_ne hother] at ho'
    exact .inr ⟨hother, ho'⟩

theorem retains_setBody {t : DataType} {k : ObjectKey} {old : Body t}
    (hold : s.body t k = .ok old) (new : Body t) : Retains s (s.setBody k new) := by
  intro other o ho
  obtain ⟨o', ho', htype, -⟩ := setBody_get? hold new ho
  exact ⟨o', ho', htype⟩

theorem ObjectsWellFormed.setBody (h : ObjectsWellFormed s) {t : DataType} {k : ObjectKey}
    {old new : Body t} (hold : s.body t k = .ok old) (hlinks : s.LinksTyped new)
    (hwindows : ∀ windows, new.toMany = .windows windows → old.toMany = .windows windows) :
    ObjectsWellFormed (s.setBody k new) := by
  have hretains := retains_setBody hold new
  refine h.alter hretains rfl ?collections ?objects
  case collections =>
    intro c col hcol
    refine (h.collectionFits hcol).carry hretains ?_ fun k' o i ho _ => setBody_get? hold new ho
    rintro t' k' ⟨o, ho, htype, hplaced⟩
    obtain ⟨o', ho', htype', htracking⟩ := setBody_get? hold new ho
    exact ⟨o', ho', htype'.trans htype, by rwa [htracking]⟩
  case objects =>
    intro k' o' ho'
    rcases setBody_get?_eq_some hold new ho' with ⟨rfl, tracking, hk, -, rfl⟩ | ⟨-, ho⟩
    · have hfits := h.objectFits hk
      exact ⟨hfits.owner, hretains.linksTyped hlinks,
        fun windows hw => hfits.windows windows (hwindows windows hw)⟩
    · exact (h.objectFits ho).carry hretains fun _ _ col _ hcol => ⟨col, hcol, .refl col⟩

/-! ## New objects -/

theorem linksTyped_ofPayload {t : DataType} (payload : t.payload.Value) :
    s.LinksTyped (Body.ofPayload payload) where
  toMany lists hlists r k hk := by
    simp only [Body.ofPayload, ToMany.lists.injEq] at hlists
    subst hlists
    simp at hk
  toOne r k hk := by
    simp [Body.ofPayload] at hk

/-- The body of a rebuilt object has no link of its own. -/
theorem linksTyped_of_isRebuilt {t : DataType} {body : Body t} {columns : Columns t}
    (h : body.IsRebuilt columns) : s.LinksTyped body := by
  obtain ⟨⟨windows, hwindows, -⟩, hsingle⟩ := h
  constructor
  · intro lists hlists
    rw [hwindows] at hlists
    cases hlists
  · intro r k hk
    simp [hsingle] at hk

theorem ObjectsWellFormed.newObject (h : ObjectsWellFormed s) {t : DataType}
    (payload : t.payload.Value) :
    ObjectsWellFormed { s with
      objects := s.objects.insert ⟨t, .floating 0, .ofPayload payload⟩ } := by
  have hretains : Retains s { s with
      objects := s.objects.insert ⟨t, .floating 0, .ofPayload payload⟩ } :=
    fun k o ho => ⟨o, Arena.get?_insert_of_get? ho, rfl⟩
  refine h.alter hretains rfl ?collections ?objects
  case collections =>
    intro c col hcol
    exact KeepsPlaced.collectionFits (.of_extends fun _ _ => Arena.get?_insert_of_get?) hretains
      (h.collectionFits hcol)
  case objects =>
    intro k o ho
    rcases Arena.get?_insert_eq_some ho with hold | ⟨-, rfl⟩
    · exact (h.objectFits hold).carry hretains fun _ _ col _ hcol => ⟨col, hcol, .refl col⟩
    · exact ⟨fun c i => nofun, linksTyped_ofPayload payload, fun windows => nofun⟩

/-- The objects after a group was added: those of before, and one for each body. -/
theorem addOwned_get?_eq_some {t : DataType} {c : CollectionKey} {position : Nat}
    {bodies : List (Body t)} {k : ObjectKey} {o : Object}
    (h : (addOwned c position bodies s).objects.get? k = some o) :
    s.objects.get? k = some o ∨ ∃ (i : Nat) (hi : i < bodies.length),
      k = s.objects.next + i ∧ o = ⟨t, .owned c (position + i), bodies[i]⟩ := by
  by_cases hlt : k < s.objects.next
  · rw [addOwned_get?_of_lt c hlt] at h
    exact .inl h
  · have hk := Arena.lt_next_of_get? h
    rw [addOwned_next] at hk
    obtain ⟨i, rfl⟩ := Nat.exists_eq_add_of_le (Nat.le_of_not_lt hlt)
    have hi : i < bodies.length := Nat.lt_of_add_lt_add_left hk
    rw [addOwned_get?_next c hi] at h
    exact .inr ⟨i, hi, rfl, (Option.some.inj h).symm⟩

theorem getElem?_keys_eq_some {n first i k : Nat}
    (h : ((List.range n).map (first + ·)).toArray[i]? = some k) : i < n ∧ k = first + i := by
  simp only [List.getElem?_toArray, List.getElem?_map, Option.map_eq_some_iff] at h
  obtain ⟨j, hj, rfl⟩ := h
  obtain ⟨hi, rfl⟩ := List.getElem?_eq_some_iff.1 hj
  have hlt : i < n := by simpa using hi
  exact ⟨hlt, by simp⟩

section Found

variable {col : Collection} {bodies : List (Body col.type)}

theorem withFounded_get?_of_get? {k : ObjectKey} {o : Object} (h : s.objects.get? k = some o) :
    (s.withFounded col bodies).objects.get? k = some o := by
  have hlt : k < ({ s with collections := s.collections.insert col } : Store).objects.next :=
    Arena.lt_next_of_get? h
  rw [withFounded, addOwned_get?_of_lt _ hlt, h]

@[simp]
theorem withFounded_collections :
    (s.withFounded col bodies).collections = s.collections.insert col := by
  rw [withFounded, addOwned_collections]

@[simp]
theorem withFounded_frames : (s.withFounded col bodies).frames = s.frames := by
  rw [withFounded, addOwned_frames]

theorem Founds.collectionFits (h : s.Founds col bodies)
    (horigin : ∀ origin, col.origin = some origin →
      ∃ toMany toOne, origin.columns = .stored toMany toOne) :
    (s.withFounded col bodies).CollectionFits s.collections.next col where
  listed objects i k hstorage hi := by
    cases h with
    -- a new subset collection owns nothing
    | subset ids hids => cases hids.symm.trans hstorage
    | owned _ hobjects _ _ =>
      cases hobjects.symm.trans hstorage
      obtain ⟨hlt, rfl⟩ := getElem?_keys_eq_some hi
      refine ⟨_, addOwned_get?_next _ hlt, rfl, ?_⟩
      simp
  slots slots k hstorage hk := by
    cases h with
    | subset ids hids =>
      cases hids.symm.trans hstorage
      simp at hk
    | owned _ hobjects _ _ => cases hobjects.symm.trans hstorage
  columns id many hresolved := by
    obtain ⟨toMany, toOne, hstored⟩ := horigin _ hresolved
    cases hstored

theorem Founds.objectFits (h : s.Founds col bodies) {i : Nat} (hi : i < bodies.length) :
    (s.withFounded col bodies).ObjectFits (s.objects.next + i)
      ⟨col.type, .owned s.collections.next (0 + i), bodies[i]⟩ := by
  cases h with
  | subset => simp at hi
  | owned _ hobjects hbodies =>
    obtain ⟨origin, hsome, hrebuilt⟩ := hbodies _ (List.getElem_mem hi)
    have hcol : (s.withFounded col bodies).collections.get? s.collections.next = some col := by
      rw [withFounded_collections]
      exact Arena.get?_insert_next
    refine ⟨?owner, linksTyped_of_isRebuilt hrebuilt, ?windows⟩
    case owner =>
      rintro c j ⟨⟩
      exact ⟨col, _, hcol, hobjects, by simp [hi]⟩
    case windows =>
      intro windows hw
      obtain ⟨windows', hwindows', hfits⟩ := hrebuilt.1
      obtain rfl : windows' = windows := ToMany.windows.inj (hwindows'.symm.trans hw)
      exact .inr ⟨_, _, col, origin, rfl, hcol, by simpa [Collection.originAs] using hsome, hfits⟩

theorem ObjectsWellFormed.found (h : ObjectsWellFormed s)
    (horigin : ∀ origin, col.origin = some origin →
      ∃ toMany toOne, origin.columns = .stored toMany toOne)
    (hfounds : s.Founds col bodies) : ObjectsWellFormed (s.withFounded col bodies) := by
  have hretains : Retains s (s.withFounded col bodies) :=
    fun k o ho => ⟨o, withFounded_get?_of_get? ho, rfl⟩
  refine h.alter hretains (addOwned_handles ..) ?collections ?objects
  case collections =>
    intro c col' hcol
    rw [withFounded_collections] at hcol
    rcases Arena.get?_insert_eq_some hcol with hold | ⟨rfl, rfl⟩
    · exact KeepsPlaced.collectionFits (.of_extends fun _ _ => withFounded_get?_of_get?) hretains
        (h.collectionFits hold)
    · exact hfounds.collectionFits horigin
  case objects =>
    intro k o ho
    rcases addOwned_get?_eq_some ho with hold | ⟨i, hi, rfl, rfl⟩
    · refine (h.objectFits hold).carry hretains fun _ _ col' _ hcol => ⟨col', ?_, .refl col'⟩
      rw [withFounded_collections]
      exact Arena.get?_insert_of_get? hcol
    · exact hfounds.objectFits hi

end Found

/-! ## Objects that enter or leave a collection -/

theorem appendOwned_of_owned {col : Collection} {objects : Array ObjectKey}
    (h : col.storage = .owned objects) (k : ObjectKey) :
    appendOwned col k = { col with storage := .owned (objects.push k) }.touch := by
  simp [appendOwned, h]

theorem appendSlot_of_subset {col : Collection} {slots : Array Slot}
    (h : col.storage = .subset slots) (slot : Slot) :
    appendSlot col slot = { col with storage := .subset (slots.push slot) }.touch := by
  simp [appendSlot, h]

theorem storage_of_normal {col : Collection} (h : col.isSubset = false) :
    ∃ objects, col.storage = .owned objects := by
  unfold Collection.isSubset at h
  rcases hstorage : col.storage with objects | slots
  · exact ⟨objects, rfl⟩
  · rw [hstorage] at h
    cases h

theorem storage_of_isSubset {col : Collection} (h : col.isSubset = true) :
    ∃ slots, col.storage = .subset slots := by
  unfold Collection.isSubset at h
  rcases hstorage : col.storage with objects | slots
  · rw [hstorage] at h
    cases h
  · exact ⟨slots, rfl⟩

/-- After one collection was changed, the others are as they were. -/
theorem modifyCollection_get?_eq_some {c d : CollectionKey} {col col' : Collection}
    {f : Collection → Collection} (hcol : s.collections.get? c = some col)
    (h : (s.modifyCollection c f).collections.get? d = some col') :
    (d = c ∧ col' = f col) ∨ (d ≠ c ∧ s.collections.get? d = some col') := by
  rcases Arena.get?_modify_eq_some h with ⟨rfl, old, hold, rfl⟩ | ⟨hd, hold⟩
  · cases hcol.symm.trans hold
    exact .inl ⟨rfl, rfl⟩
  · exact .inr ⟨Ne.symm hd, hold⟩

/-- After an object was adopted, the others are as they were. -/
theorem withAdopted_get?_eq_some {c : CollectionKey} {k k' : ObjectKey} {o o' : Object}
    {position : Nat} (ho : s.objects.get? k = some o)
    (h : (s.withAdopted c position k).objects.get? k' = some o') :
    (k' = k ∧ o' = { o with tracking := .owned c position }) ∨
      (k' ≠ k ∧ s.objects.get? k' = some o') := by
  by_cases hk : k' = k
  · subst hk
    cases (withAdopted_get?_self ho c position).symm.trans h
    exact .inl ⟨rfl, rfl⟩
  · rw [withAdopted_get?_ne hk] at h
    exact .inr ⟨hk, h⟩

/-- A collection with one more object lists the ones that it had, and has the same columns. -/
theorem continues_appendOwned {col : Collection} {objects : Array ObjectKey}
    (hstorage : col.storage = .owned objects) (k : ObjectKey) :
    col.Continues (appendOwned col k) where
  listed objects' hstorage' := by
    cases hstorage.symm.trans hstorage'
    rw [appendOwned_of_owned hstorage]
    refine ⟨objects.push k, rfl, fun i k' hi => ?_⟩
    obtain ⟨hlt, -⟩ := Array.getElem?_eq_some_iff.1 hi
    rw [Array.getElem?_push, if_neg (Nat.ne_of_lt hlt), hi]
  columns t origin horigin := by
    rw [appendOwned_of_owned hstorage]
    exact ⟨origin, horigin, fun _ => rfl⟩

section Adopted

variable {c : CollectionKey} {k : ObjectKey} {col : Collection} {o : Object} {n : UInt32}

theorem retains_withAdopted (hobject : s.objects.get? k = some o) (position : Nat) :
    Retains s (s.withAdopted c position k) := by
  intro k' o' ho'
  by_cases hk' : k' = k
  · subst hk'
    cases hobject.symm.trans ho'
    exact ⟨_, withAdopted_get?_self hobject c position, rfl⟩
  · exact ⟨o', by rw [withAdopted_get?_ne hk', ho'], rfl⟩

/-- An object that was in a collection, or left one, is another object. -/
theorem keepsPlaced_withAdopted (hobject : s.objects.get? k = some o)
    (hfloating : o.tracking = .floating n) (position : Nat) :
    KeepsPlaced s (s.withAdopted c position k) := by
  intro k' o' ho' hnot
  rw [withAdopted_get?_ne, ho']
  rintro rfl
  cases hobject.symm.trans ho'
  exact hnot n hfloating

/-- A collection lists the object that it adopted at its end. -/
theorem collectionFits_appendOwned {objects : Array ObjectKey}
    (h : s.CollectionFits c col) (hstorage : col.storage = .owned objects)
    (hobject : s.objects.get? k = some o) (htype : o.type = col.type)
    (htracking : o.tracking = .owned c objects.size) : s.CollectionFits c (appendOwned col k) := by
  rw [appendOwned_of_owned hstorage]
  refine ⟨?listed, nofun, h.columns⟩
  rintro _ i k' ⟨⟩ hi
  rw [Array.getElem?_push] at hi
  split at hi
  · rename_i hlast
    cases hi
    exact ⟨o, hobject, htype, hlast ▸ htracking⟩
  · exact h.listed objects i k' hstorage hi

theorem ObjectsWellFormed.adopt (h : ObjectsWellFormed s) (hcol : s.collections.get? c = some col)
    (hnormal : col.isSubset = false) (hobject : s.objects.get? k = some o)
    (htype : o.type = col.type) (hfloating : o.tracking = .floating n) :
    ObjectsWellFormed (s.withAdopted c col.size k) := by
  obtain ⟨objects, hstorage⟩ := storage_of_normal hnormal
  have hsize : col.size = objects.size := by simp [Collection.size, hstorage, Storage.size]
  rw [hsize]
  have hself := withAdopted_get?_self hobject c objects.size
  have hretains := retains_withAdopted (c := c) hobject objects.size
  have hkept := keepsPlaced_withAdopted (c := c) hobject hfloating objects.size
  have hcollection := withAdopted_collections_self hcol objects.size k
  refine h.alter hretains rfl ?collections ?objects
  case collections =>
    intro d col' hcol'
    rcases modifyCollection_get?_eq_some (c := c) hcol hcol' with ⟨rfl, rfl⟩ | ⟨-, hold⟩
    · exact collectionFits_appendOwned (hkept.collectionFits hretains (h.collectionFits hcol))
        hstorage hself htype rfl
    · exact hkept.collectionFits hretains (h.collectionFits hold)
  case objects =>
    intro k' o' ho'
    rcases withAdopted_get?_eq_some hobject ho' with ⟨rfl, rfl⟩ | ⟨-, hold⟩
    · refine (h.objectFits hobject).move hretains hfloating ?_
      rintro _ _ ⟨⟩
      exact ⟨_, _, hcollection, by rw [appendOwned_of_owned hstorage]; rfl, by simp⟩
    · refine (h.objectFits hold).carry hretains fun d i other _ hother => ?_
      by_cases hd : d = c
      · subst hd
        cases hcol.symm.trans hother
        exact ⟨_, hcollection, continues_appendOwned hstorage k⟩
      · exact ⟨other, by rw [withAdopted_collections_ne hd, hother], .refl other⟩

end Adopted

/-- A collection is replaced by one that fits. Only a collection that owns objects has to keep what
they need of it. -/
theorem ObjectsWellFormed.replace (h : ObjectsWellFormed s) {c : CollectionKey}
    {col : Collection} {f : Collection → Collection} (hcol : s.collections.get? c = some col)
    (hfits : s.CollectionFits c (f col))
    (hcontinues : ∀ objects, col.storage = .owned objects → col.Continues (f col)) :
    ObjectsWellFormed (s.modifyCollection c f) := by
  have hretains : Retains s (s.modifyCollection c f) := fun k o ho => ⟨o, ho, rfl⟩
  have hkept : KeepsPlaced s (s.modifyCollection c f) := .of_extends fun _ _ ho => ho
  refine h.alter hretains rfl ?collections ?objects
  case collections =>
    intro d col' hcol'
    rcases modifyCollection_get?_eq_some hcol hcol' with ⟨rfl, rfl⟩ | ⟨-, hold⟩
    · exact hkept.collectionFits hretains hfits
    · exact hkept.collectionFits hretains (h.collectionFits hold)
  case objects =>
    intro k o ho
    refine (h.objectFits ho).carry hretains fun d i other htracking hother => ?_
    by_cases hd : d = c
    · subst hd
      obtain ⟨col', objects, hcol', howned, -⟩ := h.owner k o d i ho htracking
      cases hcol.symm.trans hcol'
      cases hcol.symm.trans hother
      exact ⟨f col, Arena.get?_modify_self hcol f, hcontinues objects howned⟩
    · exact ⟨other, (Arena.get?_modify_ne (Ne.symm hd) _).trans hother, .refl other⟩

/-- A subset collection gets other places, and its columns other links. -/
theorem ObjectsWellFormed.of_subset (h : ObjectsWellFormed s) {c : CollectionKey}
    {col col' : Collection} {slots slots' : Array Slot} {f : Collection → Collection}
    (hcol : s.collections.get? c = some col) (hstorage : col.storage = .subset slots)
    (hf : f col = col') (hstorage' : col'.storage = .subset slots')
    (hplaced : ∀ k, .linked k ∈ slots' → s.IsPlaced col'.type k)
    (hcolumns : ∀ id many, col'.origin = some ⟨id, .resolved many⟩ →
      ∀ r : Fin col'.type.toMany.length, ∀ k ∈ many[r],
        s.typeName? (some k) = some (col'.type.toMany.get r).target) :
    ObjectsWellFormed (s.modifyCollection c f) := by
  subst hf
  refine h.replace hcol ⟨?listed, ?slots, hcolumns⟩ ?owned
  case listed =>
    intro objects i k howned
    cases hstorage'.symm.trans howned
  case slots =>
    intro places k hplaces hk
    cases hstorage'.symm.trans hplaces
    exact hplaced k hk
  case owned =>
    intro objects howned
    cases hstorage.symm.trans howned

theorem ObjectsWellFormed.enlist (h : ObjectsWellFormed s) {c : CollectionKey} {k : ObjectKey}
    {col : Collection} {o : Object} (hcol : s.collections.get? c = some col)
    (hsubset : col.isSubset = true) (hobject : s.objects.get? k = some o)
    (htype : o.type = col.type) (hnot : ∀ n, o.tracking ≠ .floating n) :
    ObjectsWellFormed (s.modifyCollection c (appendSlot · (.linked k))) := by
  obtain ⟨slots, hstorage⟩ := storage_of_isSubset hsubset
  refine h.of_subset hcol hstorage (appendSlot_of_subset hstorage _) rfl ?_ ?_
  · intro k' hk'
    rcases Array.mem_push.1 hk' with hold | hnew
    · exact h.slots c col slots k' hcol hstorage hold
    · cases hnew
      exact ⟨o, hobject, htype, hnot⟩
  · intro id many horigin
    exact h.columns c col id many hcol horigin

theorem mem_linked_iff {k : ObjectKey} {linked : List ObjectKey} :
    Slot.linked k ∈ (linked.map Slot.linked).toArray ↔ k ∈ linked := by
  simp

theorem withColumns_self {col : Collection} (origin : Origin col.type) :
    withColumns col origin = { col with origin := some origin }.advance := by
  simp [withColumns]

theorem ObjectsWellFormed.resolveSubset (h : ObjectsWellFormed s) {c : CollectionKey}
    {col : Collection} {slots : Array Slot} {linked : List ObjectKey} {id : CollectionId}
    (hcol : s.collections.get? c = some col) (hstorage : col.storage = .subset slots)
    (hlinked : ∀ k ∈ linked, ∃ o, s.objects.get? k = some o ∧ o.type = col.type ∧
      ∀ n, o.tracking ≠ .floating n) :
    ObjectsWellFormed (s.modifyCollection c fun col' =>
      { withColumns col' (⟨id, .resolved (Vector.replicate _ [])⟩ : Origin col.type) with
        storage := .subset (linked.map Slot.linked).toArray }) := by
  refine h.of_subset hcol hstorage (by rw [withColumns_self]) rfl ?_ ?_
  · intro k hk
    exact hlinked k (mem_linked_iff.1 hk)
  · intro id' many horigin (r : Fin col.type.toMany.length) k hk
    cases horigin
    have hnil : (Vector.replicate col.type.toMany.length ([] : List ObjectKey))[r.val] = [] :=
      Vector.getElem_replicate _
    change k ∈ (Vector.replicate col.type.toMany.length ([] : List ObjectKey))[r.val] at hk
    rw [hnil] at hk
    cases hk

/-- A place points at an object only if it is linked. -/
theorem mem_linked_of_subset {col : Collection} {slots : Array Slot}
    (hstorage : col.storage = .subset slots) {k : ObjectKey} : k ∈ col.storage.linked ↔ .linked k ∈ slots := by
  rw [hstorage, Storage.linked, List.mem_filterMap]
  constructor
  · rintro ⟨_ | k', hslot, heq⟩
    · cases heq
    · cases heq
      exact Array.mem_toList_iff.1 hslot
  · intro hslot
    exact ⟨.linked k, Array.mem_toList_iff.2 hslot, rfl⟩

theorem mem_objects_of_getElem? {col : Collection} {objects : Array ObjectKey} {i : Nat}
    {k : ObjectKey} (hstorage : col.storage = .owned objects) (hi : objects[i]? = some k) :
    k ∈ col.storage.objects := by
  rw [hstorage]
  exact Array.mem_toList_iff.2 (Array.mem_of_getElem? hi)

theorem exists_getElem?_of_mem_objects {col : Collection} {k : ObjectKey}
    (h : k ∈ col.storage.objects) :
    ∃ (objects : Array ObjectKey) (i : Nat),
      col.storage = .owned objects ∧ objects[i]? = some k := by
  rcases hstorage : col.storage with objects | slots
  · rw [hstorage] at h
    obtain ⟨i, hi⟩ := Array.getElem?_of_mem (Array.mem_toList_iff.1 h)
    exact ⟨objects, i, rfl, hi⟩
  · rw [hstorage] at h
    cases h

theorem owner?_eq_some_iff {o : Object} {c : CollectionKey} :
    o.owner? = some c ↔ ∃ i, o.tracking = .owned c i := by
  rcases htracking : o.tracking with n | ⟨d, i⟩ | _
  · simp [Object.owner?, htracking]
  · simp [Object.owner?, htracking]
  · simp [Object.owner?, htracking]

theorem owner?_of_tracking {o : Object} {c : CollectionKey} {i : Nat}
    (h : o.tracking = .owned c i) : o.owner? = some c :=
  owner?_eq_some_iff.2 ⟨i, h⟩

/-- The objects of a collection are those with it as their owner. -/
theorem ObjectsWellFormed.mem_objects_iff (h : ObjectsWellFormed s) {c : CollectionKey}
    {col : Collection} {k : ObjectKey} {o : Object} (hcol : s.collections.get? c = some col)
    (ho : s.objects.get? k = some o) : k ∈ col.storage.objects ↔ o.owner? = some c := by
  constructor
  · intro hk
    obtain ⟨objects, i, hstorage, hi⟩ := exists_getElem?_of_mem_objects hk
    obtain ⟨o', ho', -, htracking⟩ := h.listed c col objects i k hcol hstorage hi
    rw [ho] at ho'
    cases ho'
    exact owner?_of_tracking htracking
  · intro howner
    obtain ⟨i, htracking⟩ := owner?_eq_some_iff.1 howner
    obtain ⟨col', objects, hcol', hstorage, hi⟩ := h.owner k o c i ho htracking
    rw [hcol] at hcol'
    cases hcol'
    exact mem_objects_of_getElem? hstorage hi

section Reset

variable {c : CollectionKey} {col : Collection}

theorem objectFits_release {k : ObjectKey} {o : Object} (h : s.LinksTyped o.body) :
    s.ObjectFits k o.release :=
  ⟨nofun, h, fun _ _ => .inl rfl⟩

/-- The objects of the collection are released, and all others are as they were. -/
theorem withReset_get?_cases {k : ObjectKey} {o : Object} (h : ObjectsWellFormed s) (subset : Bool)
    (hcol : s.collections.get? c = some col) (ho : s.objects.get? k = some o) :
    (o.owner? = some c ∧ (s.withReset c col subset).objects.get? k = some o.release) ∨
      (o.owner? ≠ some c ∧ (s.withReset c col subset).objects.get? k = some o) := by
  have hmem := h.mem_objects_iff hcol ho
  rw [withReset_get?, ho]
  by_cases hk : k ∈ col.storage.objects
  · exact .inl ⟨hmem.1 hk, if_pos hk⟩
  · exact .inr ⟨fun howner => hk (hmem.2 howner), if_neg hk⟩

theorem exists_of_withReset_get? {subset : Bool} {k : ObjectKey} {o' : Object}
    (h : (s.withReset c col subset).objects.get? k = some o') :
    ∃ o, s.objects.get? k = some o := by
  rw [withReset_get?] at h
  split at h
  · obtain ⟨o, ho, -⟩ := Option.map_eq_some_iff.1 h
    exact ⟨o, ho⟩
  · exact ⟨o', h⟩

theorem retains_withReset (h : ObjectsWellFormed s) (subset : Bool)
    (hcol : s.collections.get? c = some col) : Retains s (s.withReset c col subset) := by
  intro k o ho
  rcases withReset_get?_cases h subset hcol ho with ⟨-, ho'⟩ | ⟨-, ho'⟩
  · exact ⟨o.release, ho', rfl⟩
  · exact ⟨o, ho', rfl⟩

theorem isPlaced_withReset (h : ObjectsWellFormed s) (subset : Bool)
    (hcol : s.collections.get? c = some col) {t : DataType} {k : ObjectKey}
    (hk : s.IsPlaced t k) : (s.withReset c col subset).IsPlaced t k := by
  obtain ⟨o, ho, htype, hnot⟩ := hk
  rcases withReset_get?_cases h subset hcol ho with ⟨-, ho'⟩ | ⟨-, ho'⟩
  · exact ⟨o.release, ho', htype, nofun⟩
  · exact ⟨o, ho', htype, hnot⟩

theorem keepsOwned_withReset (h : ObjectsWellFormed s) (subset : Bool)
    (hcol : s.collections.get? c = some col) {d : CollectionKey} (hd : d ≠ c) :
    KeepsOwned d s (s.withReset c col subset) := by
  intro k o i ho htracking
  rcases withReset_get?_cases h subset hcol ho with ⟨howner, -⟩ | ⟨-, ho'⟩
  · cases (owner?_of_tracking htracking).symm.trans howner
    exact absurd rfl hd
  · exact ⟨o, ho', rfl, rfl⟩

theorem ObjectsWellFormed.reset (h : ObjectsWellFormed s) (subset : Bool)
    (hcol : s.collections.get? c = some col) :
    ObjectsWellFormed (s.withReset c col subset) := by
  have hretains := retains_withReset h subset hcol
  refine h.alter hretains (by simp [withReset]) ?collections ?objects
  case collections =>
    intro d other hother
    by_cases hd : d = c
    · subst hd
      cases (withReset_collections_self hcol subset).symm.trans hother
      exact collectionFits_of_empty rfl rfl
    · rw [withReset_collections_ne hd] at hother
      exact (h.collectionFits hother).carry hretains (fun _ _ => isPlaced_withReset h subset hcol)
        (keepsOwned_withReset h subset hcol hd)
  case objects =>
    intro k o' ho'
    obtain ⟨o, ho⟩ := exists_of_withReset_get? ho'
    rcases withReset_get?_cases h subset hcol ho with ⟨-, hreleased⟩ | ⟨howner, hold⟩
    · cases hreleased.symm.trans ho'
      exact objectFits_release (hretains.linksTyped (h.links k o ho))
    · cases hold.symm.trans ho'
      refine (h.objectFits ho).carry hretains fun d i other htracking hother => ?_
      -- an object that was not released has another owner
      have hd : d ≠ c := by
        rintro rfl
        exact howner (owner?_of_tracking htracking)
      exact ⟨other, (withReset_collections_ne hd col subset).trans hother, .refl other⟩

end Reset

theorem ObjectsWellFormed.remove (h : ObjectsWellFormed s) {c : CollectionKey} {col : Collection}
    (hcol : s.collections.get? c = some col) (hempty : col.storage.objects = []) :
    ObjectsWellFormed { s with collections := s.collections.erase c } := by
  have hretains : Retains s { s with collections := s.collections.erase c } :=
    fun k o ho => ⟨o, ho, rfl⟩
  have hkept : KeepsPlaced s { s with collections := s.collections.erase c } :=
    .of_extends fun _ _ ho => ho
  refine h.alter hretains rfl ?collections ?objects
  case collections =>
    intro d other hother
    exact hkept.collectionFits hretains (h.collectionFits (Arena.get?_erase_eq_some hother).2)
  case objects =>
    intro k o ho
    refine (h.objectFits ho).carry hretains fun d i other htracking hother => ?_
    -- no object is left without its collection
    have hd : c ≠ d := by
      rintro rfl
      have hk := (h.mem_objects_iff hcol ho).2 (owner?_of_tracking htracking)
      rw [hempty] at hk
      cases hk
    exact ⟨other, by rw [Arena.get?_erase, if_neg hd, hother], .refl other⟩

/-! ## Resolution -/

section Resolution

variable {t : DataType} {columns : Vector (List (Option ObjectKey)) t.toOne.length}

theorem assignSingles_getElem (position : Nat) (body : Body t) (r : Fin t.toOne.length) :
    (assignSingles columns position body).toOne[r] =
      (columns[r][position]?).getD body.toOne[r] := by
  simp only [assignSingles, getElem_fin, Vector.getElem_ofFn]
  cases columns[r][position]? <;> rfl

theorem linksTyped_assignSingles {body : Body t} (hbody : s.LinksTyped body)
    (hcolumns : ∀ r : Fin t.toOne.length, ∀ k, some k ∈ columns[r] →
      s.typeName? (some k) = some (t.toOne.get r).target) (position : Nat) :
    s.LinksTyped (assignSingles columns position body) where
  toMany := hbody.toMany
  toOne r k hk := by
    rw [assignSingles_getElem] at hk
    rcases hplace : columns[r][position]? with _ | place
    · rw [hplace] at hk
      exact hbody.toOne r k hk
    · rw [hplace] at hk
      have hmem : some k ∈ columns[r] := by
        rw [← show place = some k from hk]
        exact List.mem_of_getElem? hplace
      exact hcolumns r k hmem

theorem assignAt_eq (columns : Vector (List (Option ObjectKey)) t.toOne.length) (position : Nat)
    (k : ObjectKey) (s : Store) :
    assignAt columns position k s = s ∨ ∃ body, s.body t k = .ok body ∧
      assignAt columns position k s = s.setBody k (assignSingles columns position body) := by
  unfold assignAt
  rcases hbody : s.body t k with e | body
  · exact .inl rfl
  · exact .inr ⟨body, rfl, rfl⟩

theorem retains_assignAt (columns : Vector (List (Option ObjectKey)) t.toOne.length)
    (position : Nat) (k : ObjectKey) (s : Store) : Retains s (assignAt columns position k s) := by
  rcases assignAt_eq columns position k s with heq | ⟨body, hbody, heq⟩
  · rw [heq]
    exact .refl s
  · rw [heq]
    exact retains_setBody hbody _

theorem ObjectsWellFormed.assignAllSingles (h : ObjectsWellFormed s)
    (hcolumns : ∀ r : Fin t.toOne.length, ∀ k, some k ∈ columns[r] →
      s.typeName? (some k) = some (t.toOne.get r).target) (position : Nat) (ks : List ObjectKey) :
    ObjectsWellFormed (Store.assignAllSingles columns position ks s) ∧
      Retains s (Store.assignAllSingles columns position ks s) := by
  -- on the objects that are left: setting one keeps the types that the columns ask for
  induction ks generalizing position s with
  | nil => exact ⟨h, .refl s⟩
  | cons k rest ih =>
    have hretains := retains_assignAt columns position k s
    have hstep : ObjectsWellFormed (assignAt columns position k s) := by
      rcases assignAt_eq columns position k s with heq | ⟨body, hbody, heq⟩
      · rwa [heq]
      · obtain ⟨tracking, hk, -⟩ := body_eq_ok_iff.1 hbody
        rw [heq]
        exact h.setBody hbody (linksTyped_assignSingles (h.links k _ hk) hcolumns position)
          (fun windows hw => hw)
    obtain ⟨hwell, hrest⟩ := ih hstep (fun r k' hk' => hretains.typeName? (hcolumns r k' hk'))
      (position + 1)
    exact ⟨hwell, hretains.trans hrest⟩

end Resolution

/-- Windows select from as many links as there were addresses. -/
theorem continues_withColumns {col : Collection} {id : CollectionId} {columns : Columns col.type}
    {many : Vector (List ObjectKey) col.type.toMany.length}
    (horigin : col.origin = some ⟨id, columns⟩)
    (hlength : ∀ r : Fin col.type.toMany.length, many[r].length = columns.length r) :
    col.Continues (Store.withColumns col (⟨id, .resolved many⟩ : Origin col.type)) where
  listed objects hstorage := by
    rw [withColumns_self]
    exact ⟨objects, hstorage, fun _ _ hi => hi⟩
  columns t origin hsome := by
    by_cases htype : col.type = t
    · subst htype
      have heq : origin = ⟨id, columns⟩ := by
        simpa [Collection.originAs, horigin, eq_comm] using hsome
      rw [withColumns_self]
      refine ⟨⟨id, .resolved many⟩, ?_, fun r => ?_⟩
      · simp [Collection.originAs, Collection.advance]
      · rw [heq]
        exact hlength r
    · simp [Collection.originAs, htype] at hsome

/-- The columns of a collection are replaced by as many links. -/
theorem ObjectsWellFormed.withColumns (h : ObjectsWellFormed s) {c : CollectionKey}
    {col : Collection} {id : CollectionId} {columns : Columns col.type}
    {many : Vector (List ObjectKey) col.type.toMany.length}
    (hcol : s.collections.get? c = some col) (horigin : col.origin = some ⟨id, columns⟩)
    (hlength : ∀ r : Fin col.type.toMany.length, many[r].length = columns.length r)
    (hmany : ∀ r : Fin col.type.toMany.length, ∀ k ∈ many[r],
      s.typeName? (some k) = some (col.type.toMany.get r).target) :
    ObjectsWellFormed (s.modifyCollection c fun col' =>
      Store.withColumns col' (⟨id, .resolved many⟩ : Origin col.type)) := by
  refine h.replace hcol ?fits fun _ _ => continues_withColumns horigin hlength
  have hfits := h.collectionFits hcol
  rw [withColumns_self]
  refine ⟨hfits.listed, hfits.slots, ?_⟩
  rintro id' many' ⟨⟩
  exact hmany

/-! ## All changes -/

variable {kind : ChangeKind}

theorem quiet_of_eq (hobjects : s'.objects = s.objects)
    (hcollections : s'.collections = s.collections) : Quiet s s' where
  objects k := by rw [hobjects]
  collections c := by rw [hcollections]

theorem ObjectsWellFormed.edit (h : ObjectsWellFormed s) {t : DataType} {k : ObjectKey}
    {old new : Body t} (hold : s.body t k = .ok old) (hlinks : s.LinksTyped new)
    (hwindows : ∀ windows, new.toMany = .windows windows → old.toMany = .windows windows) :
    ObjectsWellFormed ((s.advanceOwner k).setBody k new) := by
  have hquiet := quiet_advanceOwner s k
  have hadvanced := h.quiet hquiet (by simpa using h.handles)
  refine hadvanced.setBody ?_ (hquiet.retains.linksTyped hlinks) hwindows
  rw [body_eq_ok_iff] at hold ⊢
  simpa using hold

/-- A to-one relation may be set to an object of the declared type, or to nothing. -/
theorem linksTyped_setPlace {t : DataType} {body : Body t} (hlinks : s.LinksTyped body)
    {r : Fin t.toOne.length} {place : Option ObjectKey}
    (hplace : ∀ k, place = some k → s.typeName? (some k) = some (t.toOne.get r).target) :
    s.LinksTyped { body with toOne := setAt body.toOne r place } where
  toMany := hlinks.toMany
  toOne r' k hk := by
    rw [getElem_setAt] at hk
    split at hk
    · rename_i heq
      subst heq
      exact hplace k hk
    · exact hlinks.toOne r' k hk

theorem Change.objectsWellFormed (h : WellFormed s) (change : Change s kind s') :
    ObjectsWellFormed s' := by
  have hobjects := h.toObjectsWellFormed
  cases change
  case hold target htarget =>
    refine hobjects.quiet (quiet_withHandle s target) (handles_withHandle hobjects ?_)
    exact fun k hk => exists_of_existsObject (htarget k hk)
  case unlink r k hk =>
    refine hobjects.quiet (quiet_withoutTarget s r.key k) ?_
    intro key k' hk'
    rcases Arena.get?_modify_eq_some hk' with ⟨-, x, -, hx⟩ | ⟨-, hold⟩
    · cases hx
    · exact h.handles key k' hold
  case forget r hr =>
    refine hobjects.quiet (quiet_of_eq rfl rfl) ?_
    intro key k' hk'
    exact h.handles key k' (Arena.get?_erase_eq_some hk').2
  case newObject t payload =>
    refine (hobjects.newObject payload).quiet (quiet_withHandle _ _)
      (handles_withHandle (hobjects.newObject payload) ?_)
    rintro k ⟨⟩
    exact ⟨_, Arena.get?_insert_next⟩
  case access k =>
    exact hobjects.quiet (quiet_advanceOwner s k) (by simpa using h.handles)
  case edit t k old new hold hlinks hwindows _ _ => exact hobjects.edit hold hlinks hwindows
  case setPlace t k body r place hbody hplace =>
    refine hobjects.edit hbody (linksTyped_setPlace ?_ hplace) fun _ hw => hw
    obtain ⟨tracking, ho, -⟩ := body_eq_ok_iff.1 hbody
    exact hobjects.links k _ ho
  case found col bodies _ horigin hfounds => exact hobjects.found horigin hfounds
  case adopt c k col o n _ hcol hnormal hobject htype hfloating _ =>
    exact hobjects.adopt hcol hnormal hobject htype hfloating
  case enlist c k col o owner position _ hcol hsubset hobject htype howned =>
    exact hobjects.enlist hcol hsubset hobject htype (by simp [howned])
  case reset c col subset _ hcol => exact hobjects.reset subset hcol
  case remove c col _ hcol hempty => exact hobjects.remove hcol hempty
  case renumber c id _ =>
    exact hobjects.quiet (quiet_modifyCollection s s.serial c _ fun _ => rfl) h.handles
  case resolveSubset c col origin slots linked hcol hstorage _ _ hlinked =>
    exact hobjects.resolveSubset hcol hstorage hlinked
  case resolveOwned c col objects id toMany toOne many one hcol _ horigin hlength _ hmany hone =>
    obtain ⟨hassigned, hretains⟩ := hobjects.assignAllSingles hone 0 objects.toList
    refine hassigned.withColumns (by simpa using hcol) horigin hlength ?_
    intro r k hk
    exact hretains.typeName? (hmany r k hk)
  case keep c col buffers _ _ =>
    exact hobjects.quiet (quiet_modifyCollection s (s.serial + 1) c _ fun _ => rfl) h.handles
  case unkeep c =>
    exact hobjects.quiet (quiet_modifyCollection s s.serial c _ fun _ => rfl) h.handles
  case newFrame => exact hobjects.of_frames _
  case adoptIds => exact hobjects.of_frames _
  case setParameters => exact hobjects.of_frames _
  case putSlot => exact hobjects.of_frames _
  case takeSlot => exact hobjects.of_frames _
  case eraseFrame => exact hobjects.of_frames _

theorem Change.framesWellFormed (h : WellFormed s) (change : Change s kind s') :
    FramesWellFormed s' := by
  have hframes := h.toFramesWellFormed
  cases change
  case hold target _ => exact hframes.of_eq (by simp) (by simp)
  case unlink => exact hframes.of_eq rfl rfl
  case forget => exact hframes.of_eq rfl rfl
  case newObject => exact hframes.of_eq (by simp [withNewObject]) (by simp [withNewObject])
  case access k => exact hframes.advanceOwner k
  case edit k _ _ _ _ _ _ _ => exact (hframes.advanceOwner k).of_eq rfl rfl
  case setPlace k _ _ _ _ _ => exact (hframes.advanceOwner k).of_eq rfl rfl
  case found => exact hframes.of_insert withFounded_frames withFounded_collections
  case adopt c k col _ _ hloose _ _ _ _ _ _ =>
    exact hframes.of_loose hloose rfl fun d hd => Arena.get?_modify_ne hd.symm _
  case enlist hloose _ _ _ _ _ =>
    exact hframes.of_loose hloose rfl fun d hd => Arena.get?_modify_ne hd.symm _
  case reset c col subset hloose hcol =>
    exact hframes.of_loose hloose (by simp [withReset]) fun d hd =>
      withReset_collections_ne hd _ _
  case remove hloose _ _ =>
    refine hframes.of_loose hloose rfl fun d hd => ?_
    rw [Arena.get?_erase, if_neg hd.symm]
  case renumber hloose =>
    exact hframes.of_loose hloose rfl fun d hd => Arena.get?_modify_ne hd.symm _
  case resolveSubset c col origin slots linked hcol _ _ _ _ =>
    refine hframes.modifyCollection s.serial c _ fun col' => ?_
    unfold Store.withColumns
    split <;> rfl
  case resolveOwned c col objects id _ _ many one _ _ _ _ _ _ _ =>
    refine FramesWellFormed.modifyCollection (s := assignAllSingles one 0 objects.toList s)
      (hframes.of_eq (by simp) (by simp)) _ c _ fun col' => ?_
    unfold Store.withColumns
    split <;> rfl
  case keep c col _ _ _ => exact hframes.modifyCollection (s.serial + 1) c _ fun _ => rfl
  case unkeep c => exact hframes.modifyCollection s.serial c _ fun _ => rfl
  case newFrame config => exact hframes.newFrame config
  case adoptIds f frame ids parameters hframe hempty hids =>
    refine hframes.modifyFrame (fun frame => .refl _) fun frame' hframe' => ?_
    cases hframe.symm.trans hframe'
    exact (hframes.frameFits hframe).adoptIds hempty hids parameters
  case setParameters =>
    refine hframes.modifyFrame (fun frame => .refl _) fun frame hframe => ?_
    have hfits := hframes.frameFits hframe
    exact ⟨hfits.held, ⟨hfits.indexed.byName, hfits.indexed.byId⟩, hfits.ids⟩
  case putSlot f frame name c col ids hloose hcol hframe hfresh hids =>
    exact hframes.putSlot hloose hcol hframe hfresh hids
  case takeSlot f position =>
    exact hframes.modifyFrame (fun frame => List.eraseIdx_sublist _ _) fun frame hframe =>
      (hframes.frameFits hframe).removeAt position
  case eraseFrame f => exact hframes.eraseFrame f

theorem Change.wellFormed (h : WellFormed s) (change : Change s kind s') : WellFormed s' where
  toObjectsWellFormed := change.objectsWellFormed h
  toFramesWellFormed := change.framesWellFormed h

theorem Changes.wellFormed (h : WellFormed s) (changes : Changes kind s s') :
    WellFormed s' := by
  induction changes with
  | refl => exact h
  | tail _ change ih => exact change.wellFormed ih

end EventModel.Store
