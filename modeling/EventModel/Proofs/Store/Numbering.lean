import EventModel.Proofs.Store.Closed
import EventModel.Proofs.Store.Reachable

/-!
# The numbers of collections

The collections of a frame have valid and distinct numbers, whatever was put into the frame, taken
from it or read with it. The id table of a frame may run out of numbers, as it may be read with a large
one: a new name then gets no number, and the collection that was to have it is lost. So names are added
exactly as long as there are numbers left for the new ones (`numbers_apart_iff`).
-/

namespace EventModel.Store

variable {s s' : Store} {f : FrameKey} {frame : Frame} {name : String} {c : CollectionKey}
  {id : CollectionId}

/-- The numbers of the collections of a frame, in the order of the names. -/
def numbersIn (s : Store) (frame : Frame) : List CollectionId :=
  (s.known (frame.slots.map (·.2))).map (·.1)

/-- The collections of the frame have valid numbers, no two of them the same. -/
structure NumbersApart (s : Store) (frame : Frame) : Prop where
  valid : ∀ n ∈ s.numbersIn frame, n.isValid = true
  distinct : (s.numbersIn frame).Nodup

instance (frame : Frame) : Decidable (s.NumbersApart frame) :=
  decidable_of_iff ((∀ n ∈ s.numbersIn frame, n.isValid = true) ∧ (s.numbersIn frame).Nodup)
    ⟨fun ⟨hvalid, hdistinct⟩ => ⟨hvalid, hdistinct⟩, fun h => ⟨h.valid, h.distinct⟩⟩

theorem mem_numbersIn {n : CollectionId} : n ∈ s.numbersIn frame ↔
    ∃ name c col, (name, c) ∈ frame.slots ∧ s.collections.get? c = some col ∧ col.id = n := by
  rw [numbersIn, List.mem_map]
  constructor
  · rintro ⟨⟨n, c⟩, hknown, rfl⟩
    rcases mem_known.1 hknown with ⟨hc, col, hcol, hid⟩
    rcases List.mem_map.1 hc with ⟨⟨name, c⟩, hslot, rfl⟩
    exact ⟨name, c, col, hslot, hcol, hid⟩
  · rintro ⟨name, c, col, hslot, hcol, hid⟩
    exact ⟨(n, c), mem_known.2 ⟨List.mem_map_of_mem hslot, col, hcol, hid⟩, rfl⟩

/-- As the table keeps numbers apart, the frame does so, too. -/
theorem WellFormed.numbersApart (h : WellFormed s) (hframe : s.frames.get? f = some frame) :
    s.NumbersApart frame where
  valid n hn := by
    rcases mem_numbersIn.1 hn with ⟨name, c, col, hslot, hcol, rfl⟩
    rcases h.held f frame name c hframe hslot with ⟨col', hcol', hid⟩
    cases hcol.symm.trans hcol'
    exact (h.ids f frame hframe).wellNumbered.isValid_of_id? hid
  distinct := nodup_known (h.ids f frame hframe).wellNumbered (h.names f frame hframe)
    fun slot hslot => h.held f frame slot.1 slot.2 hframe hslot

/-- The collection that a frame takes is the last of its collections, with the number it was
given. -/
theorem numbersIn_withPut (hloose : s.isLoose c = true) (hframe : s.frames.get? f = some frame)
    (ids : IdTable) : (s.withPut f name c id ids).numbersIn ({ frame with ids }.push name id c) =
      s.numbersIn frame ++ [id] := by
  obtain ⟨⟨col, hcol⟩, hunheld⟩ := isLoose_iff.1 hloose
  have hself : (s.withPut f name c id ids).collections.get? c = some { col with id }.touch :=
    Arena.get?_modify_self hcol _
  have hothers : (s.withPut f name c id ids).known (frame.slots.map (·.2)) =
      s.known (frame.slots.map (·.2)) := by
    unfold known
    refine List.filterMap_congr fun d hd => ?_
    rcases List.mem_map.1 hd with ⟨⟨name', d⟩, hslot, rfl⟩
    have hne : c ≠ d := by
      rintro rfl
      exact hunheld f frame name' hframe hslot
    change ((s.collections.modify c _).get? d).map _ = _
    rw [Arena.get?_modify_ne hne]
  unfold numbersIn Frame.push
  rw [List.map_append, known, List.filterMap_append, ← known, hothers, List.map_append]
  simp [hself, Collection.touch, Collection.advance]

/-- A name that is new in the frame is accepted exactly if the table has a number for it. -/
theorem hasRoomFor_iff_accept (h : WellFormed s) (hframe : s.frames.get? f = some frame)
    (hfresh : name ∉ frame.names) :
    frame.ids.HasRoomFor [name] ↔ ∃ id ids, frame.accept name = .ok (id, ids) := by
  have hcontains := (h.indexed f frame hframe).contains_eq_false_iff.2 hfresh
  rw [IdTable.hasRoomFor_singleton_iff (h.ids f frame hframe)]
  simp only [Frame.accept_eq_ok_iff, hcontains, true_and]

/-- Without a number for it, the collection is lost and the frame stays as it is. -/
theorem put_eq_overflow (h : WellFormed s) (hframe : s.frames.get? f = some frame)
    (hfresh : name ∉ frame.names) (hfull : ¬ frame.ids.HasRoomFor [name]) (c : CollectionKey) :
    put f name c s = (.error .overflow, s.withoutCollection c) := by
  refine put_apply_of_error c hframe ?_
  rcases haccept : frame.accept name with e | ⟨id, ids⟩
  · rcases (h.indexed f frame hframe).accept_eq_error_iff.1 haccept with ⟨hheld, -⟩ | ⟨-, hadd⟩
    · exact absurd hheld hfresh
    · rw [(IdTable.add_eq_error_iff.1 hadd).2.2]
  · exact absurd ((hasRoomFor_iff_accept h hframe hfresh).2 ⟨id, ids, haccept⟩) hfull

/-- Numbers never run into each other, but they may run out. In a table that was built in any way,
every one of a sequence of names is told apart from all others, and the pairs can be taken up again,
exactly if the numbers after the largest one suffice for the new names; otherwise the sequence fails.
In a frame the collections have valid and distinct numbers. Another one that is put there under a name
that no collection has gets a valid number that is none of theirs if the table has one for the name, and
is lost otherwise. -/
theorem numbers_apart_iff {t : IdTable} (ht : t.Built) (names : List String) (h : Reachable s)
    (hframe : s.frames.get? f = some frame) (hfresh : name ∉ frame.names)
    (hloose : s.isLoose c = true) :
    (t.AddsApart names ↔ t.HasRoomFor names) ∧
      (¬ t.HasRoomFor names → t.addAll names = .error .overflow) ∧
      s.NumbersApart frame ∧
      (frame.ids.HasRoomFor [name] →
        ∃ id s' frame', put f name c s = (.ok id, s') ∧ s'.frames.get? f = some frame' ∧
          s'.numbersIn frame' = s.numbersIn frame ++ [id] ∧ s'.NumbersApart frame') ∧
      (¬ frame.ids.HasRoomFor [name] →
        put f name c s = (.error .overflow, s.withoutCollection c)) := by
  have hwell := h.wellFormed
  have hadds := IdTable.addsApart_iff ht names
  refine ⟨hadds, ?_, hwell.numbersApart hframe, ?_, ?_⟩
  · intro hfull
    rcases IdTable.addAll_cases ht names with ⟨hall, -⟩ | ⟨-, hall⟩
    · exact absurd (hadds.1 hall) hfull
    · exact hall
  · intro hroom
    obtain ⟨id, ids, haccept⟩ := (hasRoomFor_iff_accept hwell hframe hfresh).1 hroom
    have hwell' := (withPut_changes hloose hframe haccept).wellFormed hwell
    have hframe' := withPut_get?_frame name c id hframe ids
    exact ⟨id, _, _, put_apply_of_ok c hframe haccept, hframe', numbersIn_withPut hloose hframe ids,
      hwell'.numbersApart hframe'⟩
  · exact fun hfull => put_eq_overflow hwell hframe hfresh hfull c

/-! ## A frame that runs out of numbers -/

/-- A table with one number left. -/
def crowdedTable : IdTable :=
  ⟨[("hits", ⟨0xfffffffd⟩)], 0xfffffffe⟩

/-- A frame that was rebuilt with this table. A collection is still to be put into it, and another one
after that. -/
def crowdedStore : Store :=
  let read := (readFrame ⟨crowdedTable, [], .empty⟩ ⟨[]⟩ {} .empty).2
  (newCollection byteType false {} (newCollection byteType false {} read).2).2

/-- The first collection took the last number of the table. -/
def fullStore : Store :=
  (put 0 "tracks" 0 crowdedStore).2

def crowdedFrame : Frame :=
  (crowdedStore.frames.get? 0).get (by decide +kernel)

def fullFrame : Frame :=
  (fullStore.frames.get? 0).get (by decide +kernel)

theorem ofPairs_crowdedTable : IdTable.ofPairs [("hits", ⟨0xfffffffd⟩)] = .ok crowdedTable := by
  decide +kernel

theorem reachable_crowdedStore : Reachable crowdedStore := by
  have hids : IdTable.Built crowdedTable := .ofPairs ofPairs_crowdedTable
  have hread := Reachable.empty.step (.readFrame ⟨crowdedTable, [], .empty⟩ ⟨[]⟩ {} hids)
  exact (hread.step (.newCollection byteType false {})).step (.newCollection byteType false {})

theorem reachable_fullStore : Reachable fullStore :=
  reachable_crowdedStore.step (.put 0 "tracks" 0 (by decide +kernel))

/-- One more name is told apart, and the collection put under it gets its number. Two names are too
many, and the second collection is lost. -/
theorem numbers_apart_iff_crowdedStore :
    crowdedTable.AddsApart ["tracks", "hits"] ∧
      crowdedTable.addAll ["tracks", "cells"] = .error .overflow ∧
      (∃ id s' frame', put 0 "tracks" 0 crowdedStore = (.ok id, s') ∧
        s'.frames.get? 0 = some frame' ∧
        s'.numbersIn frame' = crowdedStore.numbersIn crowdedFrame ++ [id] ∧
        s'.NumbersApart frame') ∧
      fullStore.NumbersApart fullFrame ∧
      put 0 "cells" 1 fullStore = (.error .overflow, fullStore.withoutCollection 1) := by
  have hbuilt : IdTable.Built crowdedTable := .ofPairs ofPairs_crowdedTable
  have hframe : crowdedStore.frames.get? 0 = some crowdedFrame := (Option.some_get _).symm
  have hframe' : fullStore.frames.get? 0 = some fullFrame := (Option.some_get _).symm
  have hfresh : "tracks" ∉ crowdedFrame.names := by decide +kernel
  have hfresh' : "cells" ∉ fullFrame.names := by decide +kernel
  have hloose : crowdedStore.isLoose 0 = true := by decide +kernel
  have hloose' : fullStore.isLoose 1 = true := by decide +kernel
  obtain ⟨hone, -, -, hput, -⟩ := numbers_apart_iff hbuilt ["tracks", "hits"]
    reachable_crowdedStore hframe hfresh hloose
  obtain ⟨-, htwo, hapart, -, hlost⟩ := numbers_apart_iff hbuilt ["tracks", "cells"]
    reachable_fullStore hframe' hfresh' hloose'
  exact ⟨hone.2 (by decide +kernel), htwo (by decide +kernel), hput (by decide +kernel), hapart,
    hlost (by decide +kernel)⟩

end EventModel.Store
