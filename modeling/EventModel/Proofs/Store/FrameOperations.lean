import EventModel.Proofs.Store.Operations

/-!
# Operations on frames as sequences of changes

A frame is discarded together with its collections, filled from its flat form one collection after
the other, and written by preparing its collections. Each of these is a sequence of changes.
-/

namespace EventModel.Store

variable {s s' : Store} {kind : ChangeKind}

/-! ## Writing -/

theorem prepare_changes (c : CollectionKey) : Changes .gain s (prepare c s).2 := by
  unfold prepare
  rcases hcol : s.collection c with e | col
  · exact .refl
  · dsimp only
    rcases col.prepared.filter s.isCurrent with _ | prepared
    · dsimp only
      rcases hflat : s.flattenCollection col with e | buffers
      · exact .of_change (.unkeep c)
      · exact .of_change (.keep c col buffers (collection_eq_ok_iff.1 hcol) hflat)
    · exact .refl

theorem prepareAll_changes (slots : List (String × CollectionKey)) :
    Changes .gain s (prepareAll slots s).2 := by
  induction slots generalizing s with
  | nil => exact .refl
  | cons slot rest ih =>
    obtain ⟨name, c⟩ := slot
    refine changes_bind (prepare_changes c) fun ⟨serial, buffers⟩ s' _ => ?_
    exact changes_bind ih fun _ _ _ => .refl

theorem writeFrame_changes (f : FrameKey) : Changes .gain s (writeFrame f s).2 := by
  rw [writeFrame, get_bind_apply]
  refine changes_ask fun frame _ => ?_
  exact changes_bind (prepareAll_changes frame.slots) fun _ _ _ => .refl

/-! ## Discarding -/

theorem releaseAll_with_frames (ks : List ObjectKey) (frames : Arena Frame) :
    ({ s with frames } : Store).releaseAll ks = { s.releaseAll ks with frames } := by
  induction ks generalizing s with
  | nil => rfl
  | cons k rest ih => exact ih (s := s.modifyObject k Object.release)

/-- What happens to a collection does not depend on the frames. -/
theorem withoutCollection_with_frames (c : CollectionKey) (frames : Arena Frame) :
    ({ s with frames } : Store).withoutCollection c = { s.withoutCollection c with frames } := by
  unfold withoutCollection
  dsimp only
  rcases s.collections.get? c with _ | col
  · rfl
  · simp only [withReset, releaseAll_with_frames]
    rfl

@[simp]
theorem withoutCollection_frames (c : CollectionKey) :
    (s.withoutCollection c).frames = s.frames := by
  unfold withoutCollection
  split
  · rfl
  · simp [withReset]

theorem forEach_discard_apply (cs : List CollectionKey) (s : Store) :
    forEach discard cs s = (.ok (), cs.foldl withoutCollection s) := by
  induction cs generalizing s with
  | nil => rfl
  | cons c rest ih => rw [forEach, bind_apply_of_ok (discard_apply c s), ih, List.foldl_cons]

theorem foldl_withoutCollection_with_frames (cs : List CollectionKey) (frames : Arena Frame) :
    cs.foldl withoutCollection { s with frames } =
      { cs.foldl withoutCollection s with frames } := by
  induction cs generalizing s with
  | nil => rfl
  | cons c rest ih =>
    rw [List.foldl_cons, List.foldl_cons, withoutCollection_with_frames, ih]

theorem foldl_withoutCollection_frames (cs : List CollectionKey) (s : Store) :
    (cs.foldl withoutCollection s).frames = s.frames := by
  induction cs generalizing s with
  | nil => rfl
  | cons c rest ih => rw [List.foldl_cons, ih, withoutCollection_frames]

/-- Nothing else holds the collections of a frame that is gone. -/
theorem isUnheld_of_eraseFrame (h : WellFormed s) {f : FrameKey} {frame : Frame}
    (hframe : s.frames.get? f = some frame) {c : CollectionKey}
    (hc : c ∈ frame.slots.map (·.2)) : IsUnheld { s with frames := s.frames.erase f } c := by
  intro f' frame' name' hframe' hslot'
  obtain ⟨⟨name, c'⟩, hslot, rfl⟩ := List.mem_map.1 hc
  obtain ⟨hne, hget⟩ := Arena.get?_erase_eq_some hframe'
  exact hne (h.holder f frame name f' frame' name' c' hframe hget hslot hslot').1

/-- Collections that no frame holds are discarded one after the other. -/
theorem foldl_withoutCollection_changes {cs : List CollectionKey} (h : ∀ c ∈ cs, IsUnheld s c) :
    Changes .loss s (cs.foldl withoutCollection s) := by
  have hstep : ∀ c ∈ cs, ∀ s : Store, (∀ c ∈ cs, IsUnheld s c) →
      Changes .loss s (discard c s).2 ∧ ∀ c' ∈ cs, IsUnheld (discard c s).2 c' := by
    intro c hc s' hkept
    refine ⟨discard_changes (hkept c hc), ?_⟩
    rw [discard_apply]
    intro c' hc' f' frame' name' hframe'
    exact hkept c' hc' f' frame' name' (by simpa using hframe')
  have hall := (changes_forEach hstep h).1
  rwa [forEach_discard_apply] at hall

/-- A frame is destroyed as if it first let its collections go. -/
theorem discardFrame_changes (h : WellFormed s) (f : FrameKey) :
    Changes .loss s (discardFrame f s).2 := by
  rw [discardFrame, get_bind_apply]
  rcases hframe : s.frames.get? f with _ | frame
  · exact .refl
  · dsimp only
    rw [bind_apply_of_ok (forEach_discard_apply _ s), modify_apply]
    have hcommute : (frame.slots.map (·.2)).foldl withoutCollection
          { s with frames := s.frames.erase f } =
        { (frame.slots.map (·.2)).foldl withoutCollection s with
          frames := ((frame.slots.map (·.2)).foldl withoutCollection s).frames.erase f } := by
      rw [foldl_withoutCollection_with_frames, foldl_withoutCollection_frames]
    -- no frame holds the collections once this one is gone
    rw [← hcommute]
    exact .head (.eraseFrame f) (foldl_withoutCollection_changes fun c hc => isUnheld_of_eraseFrame h hframe hc)

/-! ## Filling -/

theorem newFrame_changes (config : Config) : Changes .gain s (newFrame config s).2 :=
  .of_change (.newFrame config)

theorem setParameters_changes (f : FrameKey) (parameters : Parameters) :
    Changes .gain s (setParameters f parameters s).2 := by
  rw [setParameters, modify_apply]
  exact .of_change (.setParameters f parameters)

theorem frame_eq_ok_iff {f : FrameKey} {frame : Frame} :
    s.frame f = .ok frame ↔ s.frames.get? f = some frame := by
  unfold Store.frame
  split
  · rename_i frame' hframe'
    simp [hframe']
  · rename_i hnone
    simp [hnone]

/-- The store in which a collection has a new number and a place in a frame. -/
def withPut (s : Store) (f : FrameKey) (name : String) (c : CollectionKey) (id : CollectionId)
    (ids : IdTable) : Store :=
  (s.modifyCollection c fun col => { col with id }.touch).modifyFrame f fun frame =>
    { frame with ids }.push name id c

/-- A frame takes a collection under a name that it accepts. -/
theorem put_apply_of_ok {f : FrameKey} {frame : Frame} {name : String} (c : CollectionKey)
    {id : CollectionId} {ids : IdTable} (hframe : s.frames.get? f = some frame)
    (haccept : frame.accept name = .ok (id, ids)) :
    put f name c s = (.ok id, s.withPut f name c id ids) := by
  rw [put, get_bind_apply, bind_apply, ask_apply, frame_eq_ok_iff.2 hframe]
  dsimp only
  rw [haccept]
  rfl

/-- A collection whose name is not accepted is destroyed. -/
theorem put_apply_of_error {f : FrameKey} {frame : Frame} {name : String} (c : CollectionKey)
    {e : Error} (hframe : s.frames.get? f = some frame) (haccept : frame.accept name = .error e) :
    put f name c s = (.error e, s.withoutCollection c) := by
  rw [put, get_bind_apply, bind_apply, ask_apply, frame_eq_ok_iff.2 hframe]
  dsimp only
  rw [haccept]
  dsimp only
  rw [bind_apply_of_ok (discard_apply c s)]
  rfl

/-- A collection that a frame rejects is destroyed. -/
theorem put_eq_error {f : FrameKey} {frame : Frame} {name : String} {c : CollectionKey} {e : Error}
    (hframe : s.frames.get? f = some frame) (hput : put f name c s = (.error e, s')) :
    frame.accept name = .error e ∧ s' = (discard c s).2 := by
  rcases haccept : frame.accept name with e' | ⟨id, ids⟩
  · rw [put_apply_of_error c hframe haccept] at hput
    cases hput
    exact ⟨rfl, by rw [discard_apply]⟩
  · rw [put_apply_of_ok c hframe haccept] at hput
    cases hput

theorem withPut_get?_frame {f : FrameKey} {frame : Frame} (name : String) (c : CollectionKey)
    (id : CollectionId) (hframe : s.frames.get? f = some frame) (ids : IdTable) :
    (s.withPut f name c id ids).frames.get? f = some ({ frame with ids }.push name id c) :=
  Arena.get?_modify_self hframe _

/-- A collection is given to a frame with its new number, or destroyed because the frame does not
accept the name. -/
theorem put_cases (f : FrameKey) (name : String) (c : CollectionKey) (s : Store) :
    (∃ e, put f name c s = (.error e, s)) ∨
    (∃ e, put f name c s = (.error e, s.withoutCollection c)) ∨
    ∃ frame id ids, s.frames.get? f = some frame ∧ frame.accept name = .ok (id, ids) ∧
      put f name c s = (.ok id, s.withPut f name c id ids) := by
  rcases hframe : s.frames.get? f with _ | frame
  · refine .inl ⟨.unavailable, ?_⟩
    rw [put, get_bind_apply, bind_apply, ask_apply, Store.frame, hframe]
  · rcases haccept : frame.accept name with e | ⟨id, ids⟩
    · exact .inr (.inl ⟨e, put_apply_of_error c hframe haccept⟩)
    · exact .inr (.inr ⟨frame, id, ids, rfl, haccept, put_apply_of_ok c hframe haccept⟩)

theorem withPut_changes {f : FrameKey} {frame : Frame} {name : String} {c : CollectionKey}
    {id : CollectionId} {ids : IdTable} (hloose : s.isLoose c = true)
    (hframe : s.frames.get? f = some frame) (haccept : frame.accept name = .ok (id, ids)) :
    Changes .gain s (s.withPut f name c id ids) := by
  obtain ⟨⟨col, hcol⟩, hunheld⟩ := isLoose_iff.1 hloose
  obtain ⟨hfresh, hadd⟩ := Frame.accept_eq_ok_iff.1 haccept
  have hself : (s.modifyCollection c fun col => { col with id }.touch).collections.get? c =
      some { col with id }.touch := Arena.get?_modify_self hcol _
  have hloose' : (s.modifyCollection c fun col => { col with id }.touch).isLoose c = true :=
    isLoose_of_get? hunheld hself
  have hput := Change.putSlot f frame name c { col with id }.touch ids hloose' hself hframe hfresh hadd
  exact .head (.renumber c id hloose) (.single hput)

/-- A collection that a frame takes loses nothing. -/
theorem put_changes_of_ok {f : FrameKey} {name : String} {c : CollectionKey} {id : CollectionId}
    (hloose : s.isLoose c = true) (hrun : put f name c s = (.ok id, s')) : Changes .gain s s' := by
  rcases put_cases f name c s with ⟨e, hput⟩ | ⟨e, hput⟩ | ⟨frame, id', ids, hframe, haccept, hput⟩
  · rw [hput] at hrun
    cases hrun
  · rw [hput] at hrun
    cases hrun
  · rw [hput] at hrun
    cases hrun
    exact withPut_changes hloose hframe haccept

theorem put_changes (f : FrameKey) (name : String) {c : CollectionKey}
    (hloose : s.isLoose c = true) :
    Changes .gain s (put f name c s).2 ∨ Changes .loss s (put f name c s).2 := by
  rcases put_cases f name c s with ⟨e, hput⟩ | ⟨e, hput⟩ | ⟨frame, id, ids, hframe, haccept, hput⟩
  · exact .inl (by rw [hput])
  · have hdiscard := discard_changes (isLoose_iff.1 hloose).2
    rw [discard_apply] at hdiscard
    exact .inr (by rw [hput]; exact hdiscard)
  · exact .inl (by rw [hput]; exact withPut_changes hloose hframe haccept)

theorem take_changes (t : DataType) (f : FrameKey) (name : String) :
    Changes .gain s (take t f name s).2 := by
  rw [take, get_bind_apply]
  refine changes_ask fun frame _ => ?_
  rcases frame.find? name with _ | ⟨position, c⟩
  · exact .refl
  · dsimp only
    rw [get_bind_apply]
    refine changes_ask fun col _ => ?_
    rw [modify_bind_apply, pure_apply]
    exact .of_change (.takeSlot f position)

theorem resolveFrame_changes (h : WellFormed s) (f : FrameKey) :
    Changes .gain s (resolveFrame f s).2 := by
  rw [resolveFrame, get_bind_apply]
  exact changes_ask fun frame _ => forEach_setReferences_changes h _ _

/-- No frame holds a collection that was not made yet. -/
theorem isUnheld_of_next_le (h : WellFormed s) {c : CollectionKey} (hc : s.collections.next ≤ c) :
    s.IsUnheld c := by
  intro f frame name hframe hslot
  obtain ⟨col, hcol, -⟩ := h.held f frame name _ hframe hslot
  exact Nat.not_lt.2 hc (Arena.lt_next_of_get? hcol)

theorem putAll_changes_of_ok (h : WellFormed s) {f : FrameKey} {registry : Registry}
    {config : Config} {collections : List (String × Buffers)}
    (hrun : putAll f registry config collections s = (.ok (), s')) : Changes .gain s s' := by
  induction collections generalizing s with
  | nil =>
    cases hrun
    exact .refl
  | cons entry rest ih =>
    obtain ⟨name, buffers⟩ := entry
    rw [putAll, get_bind_apply, bind_apply, ask_apply] at hrun
    rcases hframe : s.frame f with e | frame
    · rw [hframe] at hrun
      cases hrun
    · rw [hframe] at hrun
      dsimp only at hrun
      rcases hid : frame.ids.id? name with _ | id
      · rw [hid] at hrun
        cases hrun
      · rw [hid] at hrun
        obtain ⟨hbuild, hframes, hfresh⟩ := build_changes (s := s) registry buffers id config
        obtain ⟨c, s₁, hrun₁, hrun⟩ := bind_eq_ok hrun
        rw [hrun₁] at hbuild hframes hfresh
        obtain ⟨rfl, col, hcol⟩ := hfresh c rfl
        -- the collection was just made, so no frame holds it yet
        have hunheld : s₁.IsUnheld s.collections.next := by
          intro f' frame' name' hframe'
          rw [show s₁.frames = s.frames from hframes] at hframe'
          exact isUnheld_of_next_le h (Nat.le_refl _) f' frame' name' hframe'
        obtain ⟨id', s₂, hrun₂, hrun⟩ := bind_eq_ok hrun
        have hput := put_changes_of_ok (isLoose_of_get? hunheld hcol) hrun₂
        exact (hbuild.trans hput).trans (ih (hput.wellFormed (hbuild.wellFormed h)) hrun)

/-- The store with a new frame that has taken up ids and parameters. -/
def withNewFrame (s : Store) (config : Config) (data : FrameData) : Store :=
  { s with frames := s.frames.insert { config } }.modifyFrame s.frames.next fun frame =>
    { frame with ids := data.ids, parameters := data.parameters }

theorem withNewFrame_get? (config : Config) (data : FrameData) :
    (s.withNewFrame config data).frames.get? s.frames.next =
      some { config, ids := data.ids, parameters := data.parameters } :=
  Arena.get?_modify_self Arena.get?_insert_next _

theorem withNewFrame_changes (config : Config) {data : FrameData} (hids : data.ids.Built) :
    Changes .gain s (s.withNewFrame config data) :=
  .tail (newFrame_changes config) (.adoptIds s.frames.next { config } data.ids data.parameters
    Arena.get?_insert_next rfl hids)

theorem readFrameSteps_apply (data : FrameData) (registry : Registry) (config : Config)
    (s : Store) : readFrameSteps data registry config s =
      (do
        putAll s.frames.next registry config data.collections
        resolveFrame s.frames.next
        return s.frames.next : Action FrameKey) (s.withNewFrame config data) := by
  have hnew : newFrame config s =
      (.ok s.frames.next, { s with frames := s.frames.insert { config } }) := rfl
  rw [readFrameSteps, bind_apply_of_ok hnew, modify_bind_apply]
  rfl

theorem readFrameSteps_changes_of_ok (h : WellFormed s) {data : FrameData} (hids : data.ids.Built)
    {registry : Registry} {config : Config} {f : FrameKey}
    (hrun : readFrameSteps data registry config s = (.ok f, s')) : Changes .gain s s' := by
  have hnew := withNewFrame_changes (s := s) config hids
  have hwell := hnew.wellFormed h
  rw [readFrameSteps_apply] at hrun
  obtain ⟨⟨⟩, s₁, hrun₁, hrun⟩ := bind_eq_ok hrun
  have hput := putAll_changes_of_ok hwell hrun₁
  obtain ⟨⟨⟩, s₂, hrun₂, hrun⟩ := bind_eq_ok hrun
  have hresolve := resolveFrame_changes (hput.wellFormed hwell) s.frames.next
  rw [hrun₂] at hresolve
  cases hrun
  exact (hnew.trans hput).trans hresolve

/-- A frame that cannot be read leaves nothing behind, so that only gains remain. -/
theorem readFrame_changes (h : WellFormed s) {data : FrameData} (hids : data.ids.Built)
    (registry : Registry) (config : Config) :
    Changes .gain s (readFrame data registry config s).2 := by
  unfold readFrame transaction
  rcases hrun : readFrameSteps data registry config s with ⟨e | f, s'⟩
  · exact .refl
  · exact readFrameSteps_changes_of_ok h hids hrun

end EventModel.Store
