import EventModel.Proofs.Store.Losses
import EventModel.Proofs.Store.Readers

/-!
# What a frame is written to

Preparing a collection changes nothing but the buffers that are kept. So the collections of a frame,
which are prepared one after the other, are all written as they are in the store before.
-/

namespace EventModel.Store

variable {s s' : Store}

/-- The stores differ at most in the buffers that their collections keep. -/
structure SameButBuffers (s s' : Store) : Prop where
  objects : s'.objects = s.objects
  frames : s'.frames = s.frames
  collections : ∀ d, (s'.collections.get? d).map (fun col => { col with prepared := none }) =
    (s.collections.get? d).map (fun col => { col with prepared := none })

namespace SameButBuffers

theorem refl (s : Store) : SameButBuffers s s :=
  ⟨rfl, rfl, fun _ => rfl⟩

theorem symm (h : SameButBuffers s s') : SameButBuffers s' s :=
  ⟨h.objects.symm, h.frames.symm, fun d => (h.collections d).symm⟩

theorem collection (h : SameButBuffers s s') {d : CollectionKey} {col : Collection}
    (hcol : s.collections.get? d = some col) :
    ∃ col', s'.collections.get? d = some col' ∧ col' = { col with prepared := col'.prepared } := by
  have hsame := h.collections d
  rw [hcol, Option.map_some, Option.map_eq_some_iff] at hsame
  rcases hsame with ⟨col', hcol', heq⟩
  refine ⟨col', hcol', ?_⟩
  calc
    col' = { { col' with prepared := none } with prepared := col'.prepared } := rfl
    _ = { { col with prepared := none } with prepared := col'.prepared } := by rw [heq]
    _ = { col with prepared := col'.prepared } := rfl

/-- What is asked of a collection, but for its buffers, is answered in the same way. -/
theorem map_get? {α : Type} (h : SameButBuffers s s') {f : Collection → α}
    (hf : ∀ col, f { col with prepared := none } = f col) (d : CollectionKey) :
    (s'.collections.get? d).map f = (s.collections.get? d).map f := by
  have hforget : ∀ found : Option Collection,
      found.map f = (found.map fun col => { col with prepared := none }).map f := by
    intro found
    rw [Option.map_map]
    exact Option.map_congr fun col _ => (hf col).symm
  rw [hforget, h.collections d, ← hforget]

/-- Kept buffers are no target of anything. -/
theorem losesOnlyTargets (h : SameButBuffers s s') (hhandles : s'.handles = s.handles)
    (col : Collection) : LosesOnlyTargets s s' col := by
  have hobject : ∀ k, s'.objects.get? k = s.objects.get? k := fun k => by rw [h.objects]
  have hid : ∀ k, s'.idOf (some k) = s.idOf (some k) := by
    intro k
    have haddress : s'.addressOf = s.addressOf := by
      funext o
      unfold addressOf
      split
      · rename_i d i _
        have hnumber := h.map_get? (f := Collection.id) (fun _ => rfl) d
        rcases hcol : s.collections.get? d with _ | col
        · rw [hcol, Option.map_none, Option.map_eq_none_iff] at hnumber
          rw [hnumber]
        · rcases h.collection hcol with ⟨col', hcol', heq⟩
          rw [hcol', heq]
      · rfl
    rw [idOf, idOf, available, available, Option.bind_some, Option.bind_some, hobject, haddress]
  have hexists : ∀ k, s'.existsObject k = s.existsObject k := fun k =>
    existsObject_congr (tracking?_congr (hobject k)) hhandles (h.map_get? fun _ => rfl)
  exact {
    bodies := fun k _ => body_congr (hobject k) col.type
    origins := fun k _ => originOf_congr (tracking?_congr (hobject k)) (h.map_get? fun _ => rfl)
    links := fun _ _ k' _ => .inl (by rw [linkId, linkId, hexists, hid])
    places := fun k _ => .inl (hid k) }

/-- A collection is flattened to the same buffers, or fails in the same way. -/
theorem flatten_eq (h : SameButBuffers s s') (hhandles : s'.handles = s.handles)
    (c : CollectionKey) : s'.flatten c = s.flatten c := by
  unfold flatten Store.collection
  rcases hcol : s.collections.get? c with _ | col
  · have hnone : s'.collections.get? c = none := by
      have hsame := h.collections c
      rwa [hcol, Option.map_none, Option.map_eq_none_iff] at hsame
    rw [hnone]
    rfl
  · rcases h.collection hcol with ⟨col', hcol', heq⟩
    rw [hcol']
    change s'.flattenCollection col' = s.flattenCollection col
    rw [heq]
    exact (h.losesOnlyTargets hhandles col).flattenCollection_eq
      (h.symm.losesOnlyTargets hhandles.symm col)

end SameButBuffers

theorem sameButBuffers_prepared (serial : Nat) (c : CollectionKey) (prepared : Option Prepared) :
    SameButBuffers s
      ({ s with serial }.modifyCollection c fun col => { col with prepared }) where
  objects := rfl
  frames := rfl
  collections d := by
    simp only [modifyCollection_collections, Arena.get?_modify]
    split
    · rw [Option.map_map]
      rfl
    · rfl

theorem sameButBuffers_prepare (c : CollectionKey) (s : Store) :
    SameButBuffers s (prepare c s).2 := by
  unfold prepare
  split
  · exact .refl s
  · split
    · exact .refl s
    · split
      · exact sameButBuffers_prepared s.serial c none
      · exact sameButBuffers_prepared _ c (some _)

/-- The entry holds the name of the slot and the flat form of its collection. -/
def IsWritten (s : Store) (slot : String × CollectionKey) (entry : String × Buffers) : Prop :=
  entry.1 = slot.1 ∧ s.flatten slot.2 = .ok entry.2

theorem prepare_handles (c : CollectionKey) (s : Store) : (prepare c s).2.handles = s.handles := by
  unfold prepare
  split
  · rfl
  · split
    · rfl
    · split
      · rfl
      · rfl

/-- The flat form of a collection with the name that a frame has for it. -/
def flattenSlot (s : Store) (slot : String × CollectionKey) : Except Error (String × Buffers) := do
  return (slot.1, ← s.flatten slot.2)

/-- The collections of a frame are written as they are all flattened in the store before, and the first
one that cannot be flattened gives the error. -/
theorem prepareAll_fst (h : Reachable s) (slots : List (String × CollectionKey)) :
    (prepareAll slots s).1 = slots.mapM s.flattenSlot := by
  induction slots generalizing s with
  | nil => rfl
  | cons slot rest ih =>
    rcases slot with ⟨name, c⟩
    have hprepare := h.keepsBuffers.prepare_fst c
    have hslot : s.flattenSlot = (prepare c s).2.flattenSlot := by
      funext slot
      rw [flattenSlot, flattenSlot,
        (sameButBuffers_prepare c s).flatten_eq (prepare_handles c s)]
    have hrest := ih (h.step (.prepare c))
    rw [← hslot] at hrest
    rw [List.mapM_cons, prepareAll, bind_apply, flattenSlot, ← hprepare, ← hrest]
    rcases prepare c s with ⟨e | ⟨serial, buffers⟩, s₁⟩
    · rfl
    · dsimp only
      rw [bind_apply]
      change _ = (prepareAll rest s₁).1 >>= fun entries => pure ((name, buffers) :: entries)
      rcases prepareAll rest s₁ with ⟨e | entries, s₂⟩
      · rfl
      · rfl

theorem writeFrame_fst (h : Reachable s) {f : FrameKey} {frame : Frame}
    (hframe : s.frames.get? f = some frame) :
    (writeFrame f s).1 = (do
      return ⟨frame.ids, ← frame.slots.mapM s.flattenSlot, frame.parameters⟩) := by
  rw [writeFrame, get_bind_apply, bind_apply, ask_apply, frame_eq_ok_iff.2 hframe]
  dsimp only
  rw [bind_apply, ← prepareAll_fst h frame.slots]
  rcases prepareAll frame.slots s with ⟨e | entries, s₁⟩
  · rfl
  · rfl

/-- The flat forms are written if every collection has one. -/
theorem mapM_flattenSlot_eq_ok_iff {slots : List (String × CollectionKey)}
    {entries : List (String × Buffers)} :
    slots.mapM s.flattenSlot = .ok entries ↔ List.Forall₂ s.IsWritten slots entries := by
  have hslot : ∀ slot entry, s.flattenSlot slot = .ok entry ↔ s.IsWritten slot entry := by
    rintro ⟨name, c⟩ ⟨name', buffers⟩
    unfold flattenSlot IsWritten
    rw [bind_eq_ok_iff]
    constructor
    · rintro ⟨flat, hflat, heq⟩
      cases heq
      exact ⟨rfl, hflat⟩
    · rintro ⟨rfl, hflat⟩
      exact ⟨buffers, hflat, rfl⟩
  simp only [mapM_eq_ok_iff, hslot]

/-- A frame is written to the flat forms of its collections, in their order. -/
theorem writeFrame_fst_eq_ok_iff (h : Reachable s) {f : FrameKey} {d : FrameData} :
    (writeFrame f s).1 = .ok d ↔
      ∃ frame, s.frame f = .ok frame ∧ d.ids = frame.ids ∧ d.parameters = frame.parameters ∧
        List.Forall₂ s.IsWritten frame.slots d.collections := by
  simp only [← mapM_flattenSlot_eq_ok_iff]
  rcases hframe : s.frame f with e | frame
  · rw [writeFrame, get_bind_apply, bind_apply, ask_apply, hframe]
    constructor
    · intro hfalse
      cases hfalse
    · rintro ⟨frame, hfalse, -⟩
      cases hfalse
  · rw [writeFrame_fst h (frame_eq_ok_iff.1 hframe), bind_eq_ok_iff]
    constructor
    · rintro ⟨entries, hentries, heq⟩
      cases heq
      exact ⟨frame, rfl, rfl, rfl, hentries⟩
    · rintro ⟨frame', hsome, hids, hparameters, hentries⟩
      cases hsome
      rcases d with ⟨ids, collections, parameters⟩
      cases hids
      cases hparameters
      exact ⟨collections, hentries, rfl⟩

end EventModel.Store
