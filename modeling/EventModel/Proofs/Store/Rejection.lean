import EventModel.Proofs.Store.Emptying
import EventModel.Proofs.Store.Numbering
import EventModel.Proofs.Store.Written

/-!
# Collections that a frame rejects

A frame that has a name already does not take another collection under it, and neither does one
without a number left for the name. The collection was given away by then, and so it is destroyed: the
frame stays as it is, but the objects of the collection are gone. What the frame holds may lead to
them, and then the frame can no longer be written. A collection that cannot be taken out of a frame
stays there, and nothing changes (`rejection`).
-/

namespace EventModel.Store

variable {s s' : Store} {c d : CollectionKey} {k : ObjectKey} {t : DataType} {col : Collection}

/-! ## After the collection was destroyed -/

/-- The flat form of the collection `d` depends on the collection `c`: it is that collection, or
relations or places of it lead to objects that `c` owns. -/
def DependsOn (s : Store) (d c : CollectionKey) : Prop :=
  ∃ col, s.collections.get? d = some col ∧ c ∈ s.dependencies d col

namespace Empties

variable {how : Emptying}

theorem get?_of_ne (h : Empties how c s s') (hd : d ≠ c) :
    s'.collections.get? d = s.collections.get? d := by
  rw [h.collections, if_neg hd]

/-- A link that does not lead to an object of the emptied collection is stored as before. -/
theorem linkId_of_other (h : Empties how c s s') (hwell : WellFormed s)
    (hk : s.ownerOf? k ≠ some c) : s'.linkId k = s.linkId k := by
  have hid := (h.answersSame hwell hk).idOf
  by_cases hkept : s.IsKeptOnlyBy c k
  -- a released object has no address, whether a place keeps it or not
  · have hbefore := (isUnavailable_of_released hkept.released).linkId
    have hsame : s'.tracking? k = s.tracking? k := tracking?_congr (h.get?_of_other hwell hk)
    rw [hbefore, (isUnavailable_of_released (hsame.trans hkept.released)).linkId]
  · rw [Store.linkId, Store.linkId, hid, h.existsObject_of_not_isKeptOnlyBy hwell hk hkept]

theorem bodies_of_ne (h : Empties how c s s') (hwell : WellFormed s)
    (hcol : s.collections.get? d = some col) (hd : d ≠ c) (hk : k ∈ col.storage.objects) :
    s'.body col.type k = s.body col.type k ∧ s'.originOf col.type k = s.originOf col.type k := by
  have howner := ownerOf?_of_mem_objects hwell hcol hk
  have hobject : s'.objects.get? k = s.objects.get? k := by
    refine h.get?_of_other hwell ?_
    rw [howner]
    rintro ⟨⟩
    exact hd rfl
  refine ⟨body_congr hobject _, originOf_of_ownerOf? hobject (fun d' hd' => ?_) _⟩
  cases howner.symm.trans hd'
  exact h.get?_of_ne hd

/-- Another collection loses nothing but what it leads to. -/
theorem losesOnlyTargets (h : Empties how c s s') (hwell : WellFormed s)
    (hcol : s.collections.get? d = some col) (hd : d ≠ c) : LosesOnlyTargets s s' col where
  bodies k hk := (h.bodies_of_ne hwell hcol hd hk).1
  origins k hk := (h.bodies_of_ne hwell hcol hd hk).2
  links k _ k' _ := by
    by_cases howner : s.ownerOf? k' = some c
    · exact .inr (isUnavailable_of_released (h.released hwell howner)).linkId
    · exact .inl (h.linkId_of_other hwell howner)
  places k _ := by
    by_cases howner : s.ownerOf? k = some c
    · exact .inr (isUnavailable_of_released (h.released hwell howner)).idOf
    · exact .inl (h.answersSame hwell howner).idOf

theorem flatten_orUnavailable (h : Empties how c s s') (hwell : WellFormed s) (hd : d ≠ c) :
    OrUnavailable (s.flatten d) (s'.flatten d) := by
  unfold flatten Store.collection
  rw [h.get?_of_ne hd]
  rcases hcol : s.collections.get? d with _ | col
  · exact .refl _
  · exact (h.losesOnlyTargets hwell hcol hd).flattenCollection

/-- A collection that does not depend on the emptied one is flattened as before. -/
theorem flatten_eq (h : Empties how c s s') (hwell : WellFormed s) (hd : ¬ s.DependsOn d c) :
    s'.flatten d = s.flatten d := by
  rcases hcol : s.collections.get? d with _ | col
  · have hnone : s'.collections.get? d = none := by
      rw [h.collections]
      split
      · rename_i heq
        rw [← heq, hcol, Option.bind_none]
      · exact hcol
    rw [flatten, flatten, Store.collection, Store.collection, hcol, hnone]
    rfl
  · have hne : d ≠ c := by
      rintro rfl
      exact hd ⟨col, hcol, mem_dependencies_iff.2 (.inl rfl)⟩
    have hother : ∀ k, (k ∈ col.storage.linked ∨
        ∃ k' ∈ col.storage.objects, k ∈ s.linkedObjects col.type k') → s.ownerOf? k ≠ some c := by
      intro k hk howner
      exact hd ⟨col, hcol, mem_dependencies_iff.2 (.inr ⟨k, hk, howner⟩)⟩
    have hback : LosesOnlyTargets s' s col := {
      bodies := fun k hk => (h.bodies_of_ne hwell hcol hne hk).1.symm
      origins := fun k hk => (h.bodies_of_ne hwell hcol hne hk).2.symm
      links := fun k hk k' hk' => by
        rcases h.bodies_of_ne hwell hcol hne hk with ⟨hbody, horigin⟩
        rw [linkedObjects_congr hbody horigin] at hk'
        exact .inl (h.linkId_of_other hwell (hother k' (.inr ⟨k, hk, hk'⟩))).symm
      places := fun k hk => .inl (h.answersSame hwell (hother k (.inl hk))).idOf.symm }
    have hcol' := (h.get?_of_ne hne).trans hcol
    rw [flatten, flatten, collection_eq_ok_iff.2 hcol, collection_eq_ok_iff.2 hcol']
    exact (h.losesOnlyTargets hwell hcol hne).flattenCollection_eq hback

/-- One that does depend on it cannot be flattened any more. -/
theorem flatten_ne_ok (h : Empties how c s s') (hwell : WellFormed s) (hd : s.DependsOn d c)
    (hne : d ≠ c) (buffers : Buffers) : s'.flatten d ≠ .ok buffers := by
  rcases hd with ⟨col, hcol, hdepends⟩
  have hcol' := (h.get?_of_ne hne).trans hcol
  rw [flatten, collection_eq_ok_iff.2 hcol']
  change s'.flattenCollection col ≠ .ok buffers
  intro hflat
  rcases mem_dependencies_iff.1 hdepends with heq | ⟨k, hlinked | ⟨k', hk', hlinked⟩, howner⟩
  · exact hne heq.symm
  · have hreleased := h.released hwell howner
    unfold Store.flattenCollection at hflat
    rcases hstorage : col.storage with objects | slots
    · rw [hstorage] at hlinked
      cases hlinked
    · rw [hstorage] at hflat
      rcases bind_eq_ok_iff.1 hflat with ⟨ids, hids, -⟩
      have hslot := Array.mem_toList_iff.2 ((mem_linked_of_subset hstorage).1 hlinked)
      rcases exists_right_of_forall₂ (mapM_eq_ok_iff.1 hids) hslot with ⟨id, -, hid⟩
      rw [slotId, (isUnavailable_of_released hreleased).idOf] at hid
      cases hid
  · have hreleased := h.released hwell howner
    rcases h.bodies_of_ne hwell hcol hne hk' with ⟨hbody, horigin⟩
    rw [← linkedObjects_congr hbody horigin] at hlinked
    rcases exists_getElem?_of_mem_objects hk' with ⟨objects, i, hstorage, hi⟩
    have hmem : k' ∈ objects.toList := Array.mem_toList_iff.2 (Array.mem_of_getElem? hi)
    rcases linkId_of_flattenCollection hstorage hflat hmem hlinked with ⟨o, d', j, ho, htracking⟩
    rw [tracking?_of_get? ho, htracking] at hreleased
    cases hreleased

end Empties

/-! ## Rejection -/

section Rejection

variable {f : FrameKey} {frame : Frame} {name : String} {e : Error}

/-- What a frame keeps when the collection `c`, which it does not hold, is destroyed. -/
structure KeepsFrame (f : FrameKey) (frame : Frame) (c : CollectionKey) (s s' : Store) : Prop where
  /-- Names, id table, parameters and places of all frames. -/
  frames : s'.frames = s.frames
  collections : ∀ slot ∈ frame.slots, s'.collections.get? slot.2 = s.collections.get? slot.2
  byName : ∀ t, s'.typedCollection? t frame = s.typedCollection? t frame
  byNumber : ∀ id, (frame.resolver id).map s'.collections.get? =
    (frame.resolver id).map s.collections.get?
  /-- The frame is written as before, unless something in it leads to an object of the collection. -/
  written : (∀ slot ∈ frame.slots, ¬ s.DependsOn slot.2 c) →
    (writeFrame f s').1 = (writeFrame f s).1
  /-- Otherwise it cannot be written: with the error of before, or because the object is gone. -/
  unwritten : ∀ slot ∈ frame.slots, s.DependsOn slot.2 c →
    ∃ e, (writeFrame f s').1 = .error e ∧ (e = .unavailable ∨ (writeFrame f s).1 = .error e)

theorem Empties.keepsFrame {how : Emptying} (h : Empties how c s s') (hs : Reachable s)
    (hs' : Reachable s') (hframe : s.frames.get? f = some frame)
    (hunheld : ∀ slot ∈ frame.slots, slot.2 ≠ c) : KeepsFrame f frame c s s' where
  frames := h.frames
  collections slot hslot := h.get?_of_ne (hunheld slot hslot)
  byName t := by
    funext name
    unfold typedCollection?
    rcases hfound : frame.collection? name with _ | d
    · rfl
    · have hslot := (hs.wellFormed.indexed f frame hframe).collection?_iff.1 hfound
      have hsame := h.get?_of_ne (hunheld _ hslot)
      have htyped : s'.collectionAs t d = s.collectionAs t d := by
        rw [collectionAs, collectionAs, Store.collection, Store.collection, hsame]
      rw [Option.filter_some, Option.filter_some, htyped]
  byNumber id := by
    rcases hfound : frame.resolver id with _ | d
    · rfl
    · obtain ⟨name, hslot, -⟩ := (hs.wellFormed.indexed f frame hframe).resolver_iff.1 hfound
      rw [Option.map_some, Option.map_some, h.get?_of_ne (hunheld _ hslot)]
  written hnone := by
    rw [writeFrame_fst hs hframe, writeFrame_fst hs' (h.frames ▸ hframe)]
    refine congrArg (· >>= _) (mapM_congr fun slot hslot => ?_)
    rw [flattenSlot, flattenSlot, h.flatten_eq hs.wellFormed (hnone slot hslot)]
  unwritten slot hslot hdepends := by
    have hslots : OrUnavailable (frame.slots.mapM s.flattenSlot)
        (frame.slots.mapM s'.flattenSlot) := by
      refine .mapM fun slot hslot => ?_
      exact (h.flatten_orUnavailable hs.wellFormed (hunheld slot hslot)).bind fun _ _ => .refl _
    rw [writeFrame_fst hs hframe, writeFrame_fst hs' (h.frames ▸ hframe)]
    rcases hrun : frame.slots.mapM s'.flattenSlot with e | entries
    · refine ⟨e, rfl, ?_⟩
      rcases hslots with heq | hunavailable
      · rw [← heq, hrun]
        exact .inr rfl
      · rw [hrun] at hunavailable
        exact .inl (Except.error.inj hunavailable)
    · rcases exists_right_of_forall₂ (mapM_eq_ok_iff.1 hrun) hslot with ⟨entry, -, hentry⟩
      rcases bind_eq_ok_iff.1 hentry with ⟨buffers, hflat, -⟩
      exact absurd hflat (h.flatten_ne_ok hs.wellFormed hdepends (hunheld slot hslot) buffers)

theorem take_eq_error (htake : take t f name s = (.error e, s')) : s' = s := by
  rw [take, get_bind_apply] at htake
  rcases ask_bind_eq_error htake with rfl | ⟨frame, -, htake⟩
  · rfl
  · rcases hfound : frame.find? name with _ | ⟨position, d⟩ <;> rw [hfound] at htake
    · cases htake
    · dsimp only at htake
      rw [get_bind_apply] at htake
      rcases ask_bind_eq_error htake with rfl | ⟨col, -, htake⟩
      · rfl
      · cases htake

/-- A frame rejects a collection if it has the name already, or if it has no number left for it. -/
inductive Rejects (frame : Frame) (name : String) : Error → Prop
  | held (hname : name ∈ frame.names) : Rejects frame name (.nameAlreadyPresent name)
  | full (hname : name ∉ frame.names) (hfull : ¬ frame.ids.HasRoomFor [name]) :
      Rejects frame name .overflow

theorem rejects_of_accept (hwell : WellFormed s) (hframe : s.frames.get? f = some frame)
    (haccept : frame.accept name = .error e) : Rejects frame name e := by
  rcases (hwell.indexed f frame hframe).accept_eq_error_iff.1 haccept
    with ⟨hname, rfl⟩ | ⟨hname, hadd⟩
  · exact .held hname
  · rw [(IdTable.add_eq_error_iff.1 hadd).2.2]
    refine .full hname fun hroom => ?_
    obtain ⟨id, ids, haccept'⟩ := (hasRoomFor_iff_accept hwell hframe hname).1 hroom
    cases haccept.symm.trans haccept'

/-- In every reachable store, a collection that a frame rejects is destroyed as if it was dropped, and
all that the frame itself answers is as before; a collection that cannot be taken out stays as it is. -/
theorem rejection (h : Reachable s) (hframe : s.frames.get? f = some frame) :
    (∀ name c e s', s.isLoose c = true → put f name c s = (.error e, s') →
      Rejects frame name e ∧ s' = (discard c s).2 ∧ KeepsFrame f frame c s s' ∧
        IsIsolated c s s') ∧
    ∀ t name e s', take t f name s = (.error e, s') → s' = s := by
  constructor
  · rintro name c e s' hloose hput
    rcases put_eq_error hframe hput with ⟨haccept, rfl⟩
    have hreachable : Reachable (discard c s).2 := h.step (.discard c hloose)
    have hempties := empties_discard c s
    refine ⟨rejects_of_accept h.wellFormed hframe haccept, rfl,
      hempties.keepsFrame h hreachable hframe ?_, ?_⟩
    · rintro ⟨name', d⟩ hslot rfl
      exact (isLoose_iff.1 hloose).2 f frame name' hframe hslot
    · exact hempties.isIsolated h.wellFormed hreachable.wellFormed
  · exact fun t name e s' => take_eq_error

/-- A frame whose only object leads to an object of a collection that is loose. -/
def leadingStore : Store :=
  let linked := (addRelated (t := nodeType) ⟨⟨⟨0⟩⟩⟩ 0 ⟨1⟩ (withNode 6 (withNode 5 .empty))).2
  (put 0 "nodes" 0 (newFrame {} linked).2).2

def leadingFrame : Frame :=
  (leadingStore.frames.get? 0).get (by decide +kernel)

theorem reachable_leadingStore : Reachable leadingStore := by
  have hfirst := reachable_withNode 5 .empty (by decide +kernel)
  have hsecond := reachable_withNode 6 hfirst (by decide +kernel)
  have hlinked := hsecond.step (.addRelated (t := nodeType) ⟨⟨⟨0⟩⟩⟩ 0 ⟨1⟩)
  exact (hlinked.step (.newFrame {})).step (.put 0 "nodes" 0 (by decide +kernel))

theorem rejection_leadingStore :
    leadingStore.frames.get? 0 = some leadingFrame ∧ leadingStore.isLoose 1 = true ∧
      (put 0 "nodes" 1 leadingStore).1 = .error (.nameAlreadyPresent "nodes") ∧
      KeepsFrame 0 leadingFrame 1 leadingStore (put 0 "nodes" 1 leadingStore).2 := by
  have hframe : leadingStore.frames.get? 0 = some leadingFrame := (Option.some_get _).symm
  have hloose : leadingStore.isLoose 1 = true := by decide +kernel
  have herror : (put 0 "nodes" 1 leadingStore).1 = .error (.nameAlreadyPresent "nodes") := by
    decide +kernel
  have hput := (rejection reachable_leadingStore hframe).1 "nodes" 1 _ _ hloose (Prod.ext herror rfl)
  exact ⟨hframe, hloose, herror, hput.2.2.1⟩

/-- A rejected collection loses its objects, and the frame may then no longer be written. -/
theorem not_unchanged_of_put_error :
    (¬ ∀ (s : Store) (f : FrameKey) (name : String) (c : CollectionKey) (e : Error) (k : ObjectKey),
      Reachable s → s.isLoose c = true → (put f name c s).1 = .error e → s.ownerOf? k = some c →
        (put f name c s).2.isAvailable (some k) = s.isAvailable (some k)) ∧
    ¬ ∀ (s : Store) (f : FrameKey) (name : String) (c : CollectionKey) (e : Error),
      Reachable s → s.isLoose c = true → (put f name c s).1 = .error e →
        (writeFrame f (put f name c s).2).1 = (writeFrame f s).1 := by
  have hloose : leadingStore.isLoose 1 = true := by decide +kernel
  have herror : (put 0 "nodes" 1 leadingStore).1 = .error (.nameAlreadyPresent "nodes") := by
    decide +kernel
  constructor
  · intro hkeeps
    have hsame := hkeeps leadingStore 0 "nodes" 1 _ 1 reachable_leadingStore hloose herror
      (by decide +kernel)
    revert hsame
    decide +kernel
  · intro hkeeps
    have hsame := hkeeps leadingStore 0 "nodes" 1 _ reachable_leadingStore hloose herror
    have hbefore : (writeFrame 0 leadingStore).1.toOption.isSome = true := by decide +kernel
    rw [← hsame] at hbefore
    revert hbefore
    decide +kernel

end Rejection

end EventModel.Store
