import Mathlib.Data.List.Nodup
import EventModel.Proofs.IdTable
import EventModel.Store.Basic

/-!
# The positions that a frame keeps

A frame keeps the position of every collection twice, by its name and by its number. `IsIndexed` says
that both agree with the collections: a name is found exactly where a collection has it, and a number
exactly where the name of a collection has that number in the id table. A frame without collections is
indexed. It stays so when a collection is put behind the others (`IsIndexed.push`), and when one is
taken out of the middle and the rest moves up (`IsIndexed.removeAt`).
-/

namespace EventModel

namespace Positions

variable {κ : Type} [DecidableEq κ]

omit [DecidableEq κ] in
theorem ofList_concat (keys : List κ) (key : κ) :
    ofList (keys ++ [key]) = (ofList keys).insert key keys.length := by
  simp [ofList, List.zipIdx_append]

/-- Distinct keys are found where they stand. -/
theorem get?_ofList_iff {keys : List κ} (hnodup : keys.Nodup) {key : κ} {i : Nat} :
    (ofList keys).get? key = some i ↔ keys[i]? = some key := by
  -- on the keys from the last to the first, as the last one was entered last
  induction keys using List.reverseRecOn with
  | nil => simp [ofList]
  | append_singleton front last ih =>
    obtain ⟨hfront, -, hdisjoint⟩ := List.nodup_append.1 hnodup
    have hlast : last ∉ front := fun hmem => hdisjoint last hmem last List.mem_cons_self rfl
    rw [ofList_concat, get?_insert]
    by_cases hkey : key = last
    · subst hkey
      rw [if_pos rfl, Option.some.injEq]
      constructor
      · rintro rfl
        exact List.getElem?_concat_length
      · intro hget
        rcases Nat.lt_or_ge i front.length with hlt | hge
        · rw [List.getElem?_append_left hlt] at hget
          exact absurd (List.mem_of_getElem? hget) hlast
        · have hi := (List.getElem?_eq_some_iff.1 hget).1
          rw [List.length_append, List.length_singleton] at hi
          omega
    · rw [if_neg hkey, ih hfront]
      rcases Nat.lt_trichotomy i front.length with hlt | rfl | hgt
      · rw [List.getElem?_append_left hlt]
      · rw [List.getElem?_concat_length, List.getElem?_eq_none (Nat.le_refl _)]
        simp [Ne.symm hkey]
      · rw [List.getElem?_eq_none (Nat.le_of_lt hgt), List.getElem?_eq_none]
        rw [List.length_append, List.length_singleton]
        exact hgt

end Positions

/-- What stands in a list with one more element at its end. -/
theorem getElem?_concat_eq_some_iff {α : Type} {xs : List α} {x y : α} {i : Nat} :
    (xs ++ [x])[i]? = some y ↔ xs[i]? = some y ∨ (i = xs.length ∧ x = y) := by
  rcases Nat.lt_trichotomy i xs.length with hlt | rfl | hgt
  · rw [List.getElem?_append_left hlt]
    simp [Nat.ne_of_lt hlt]
  · simp
  · have hnone : (xs ++ [x])[i]? = none := by
      rw [List.getElem?_eq_none_iff, List.length_append, List.length_singleton]
      exact hgt
    have hnone' : xs[i]? = none := List.getElem?_eq_none (Nat.le_of_lt hgt)
    simp [hnone, hnone', Nat.ne_of_gt hgt]

namespace Frame

variable {frame : Frame} {name : String} {id : CollectionId} {c : CollectionKey} {i : Nat}
  {ids : IdTable}

/-- Names and numbers are found where the collections that have them stand. -/
structure IsIndexed (frame : Frame) : Prop where
  byName : ∀ name i, frame.byName.get? name = some i ↔ ∃ c, frame.slots[i]? = some (name, c)
  byId : ∀ id i, frame.byId.get? id = some i ↔
    ∃ name c, frame.slots[i]? = some (name, c) ∧ frame.ids.id? name = some id

/-- The id table knows the name of every collection. -/
def IsNumbered (frame : Frame) : Prop :=
  ∀ name ∈ frame.names, ∃ id, frame.ids.id? name = some id

theorem isIndexed_of_slots_nil (hslots : frame.slots = []) (hbyName : frame.byName = .empty)
    (hbyId : frame.byId = .empty) : frame.IsIndexed where
  byName name i := by simp [hslots, hbyName]
  byId id i := by simp [hslots, hbyId]

namespace IsIndexed

/-! ## Finding collections -/

theorem find?_iff (h : frame.IsIndexed) :
    frame.find? name = some (i, c) ↔ frame.slots[i]? = some (name, c) := by
  unfold find?
  constructor
  · intro hfound
    obtain ⟨j, hj, hslot⟩ := Option.bind_eq_some_iff.1 hfound
    obtain ⟨d, hd⟩ := (h.byName name j).1 hj
    rw [hd] at hslot
    cases hslot
    exact hd
  · intro hslot
    rw [(h.byName name i).2 ⟨c, hslot⟩, Option.bind_some, hslot]
    rfl

theorem collection?_iff (h : frame.IsIndexed) :
    frame.collection? name = some c ↔ (name, c) ∈ frame.slots := by
  rw [collection?, Option.map_eq_some_iff, List.mem_iff_getElem?]
  constructor
  · rintro ⟨⟨i, d⟩, hfound, rfl⟩
    exact ⟨i, h.find?_iff.1 hfound⟩
  · rintro ⟨i, hslot⟩
    exact ⟨(i, c), h.find?_iff.2 hslot, rfl⟩

theorem resolver_iff (h : frame.IsIndexed) : frame.resolver id = some c ↔
    ∃ name, (name, c) ∈ frame.slots ∧ frame.ids.id? name = some id := by
  unfold resolver
  constructor
  · intro hfound
    obtain ⟨i, hi, hslot⟩ := Option.bind_eq_some_iff.1 hfound
    obtain ⟨name, d, hd, hid⟩ := (h.byId id i).1 hi
    rw [hd] at hslot
    cases hslot
    exact ⟨name, List.mem_of_getElem? hd, hid⟩
  · rintro ⟨name, hslot, hid⟩
    obtain ⟨i, hi⟩ := List.mem_iff_getElem?.1 hslot
    rw [(h.byId id i).2 ⟨name, c, hi, hid⟩, Option.bind_some, hi]
    rfl

theorem contains_iff (h : frame.IsIndexed) : frame.contains name = true ↔ name ∈ frame.names := by
  rw [contains, Option.isSome_iff_exists, names, List.mem_map]
  constructor
  · rintro ⟨i, hi⟩
    obtain ⟨c, hslot⟩ := (h.byName name i).1 hi
    exact ⟨_, List.mem_of_getElem? hslot, rfl⟩
  · rintro ⟨⟨name, c⟩, hslot, rfl⟩
    obtain ⟨i, hi⟩ := List.mem_iff_getElem?.1 hslot
    exact ⟨i, (h.byName name i).2 ⟨c, hi⟩⟩

theorem contains_eq_false_iff (h : frame.IsIndexed) :
    frame.contains name = false ↔ name ∉ frame.names := by
  rw [← h.contains_iff, Bool.not_eq_true]

theorem collection?_eq_none_iff (h : frame.IsIndexed) :
    frame.collection? name = none ↔ name ∉ frame.names := by
  rw [Option.eq_none_iff_forall_ne_some, names, List.mem_map]
  constructor
  · rintro hnone ⟨⟨name, c⟩, hslot, rfl⟩
    exact hnone c (h.collection?_iff.2 hslot)
  · intro hnot c hc
    exact hnot ⟨(name, c), h.collection?_iff.1 hc, rfl⟩

/-- No two collections have one name. -/
theorem position_eq (h : frame.IsIndexed) {d : CollectionKey} {j : Nat}
    (hi : frame.slots[i]? = some (name, c)) (hj : frame.slots[j]? = some (name, d)) : i = j := by
  have hfirst := (h.byName name i).2 ⟨c, hi⟩
  exact Option.some.inj (hfirst.symm.trans ((h.byName name j).2 ⟨d, hj⟩))

theorem nodup_names (h : frame.IsIndexed) : frame.names.Nodup := by
  rw [List.nodup_iff_getElem?_ne_getElem?]
  intro i j hlt hj heq
  rw [names, List.length_map] at hj
  have hi : i < frame.slots.length := Nat.lt_trans hlt hj
  rw [names, List.getElem?_map, List.getElem?_map, List.getElem?_eq_getElem hi,
    List.getElem?_eq_getElem hj] at heq
  have hname : frame.slots[i].1 = frame.slots[j].1 := Option.some.inj heq
  have hslot : frame.slots[i]? = some (frame.slots[j].1, frame.slots[i].2) := by
    rw [List.getElem?_eq_getElem hi, ← hname]
  exact Nat.ne_of_lt hlt (h.position_eq hslot (List.getElem?_eq_getElem hj))

/-- The positions that a frame keeps answer as a search for the name. -/
theorem collection?_eq_lookup (h : frame.IsIndexed) (name : String) :
    frame.collection? name = frame.slots.lookup name := by
  ext c
  rw [h.collection?_iff]
  exact ⟨lookup_eq_some_of_mem h.nodup_names, mem_of_lookup_eq_some⟩

end IsIndexed

/-! ## Putting a collection into a frame -/

theorem accept_eq_ok_iff : frame.accept name = .ok (id, ids) ↔
    frame.contains name = false ∧ frame.ids.add name = .ok (id, ids) := by
  unfold accept
  cases frame.contains name <;> simp

/-- A name is not accepted if the frame has it, or if there is no number left for it. -/
theorem IsIndexed.accept_eq_error_iff (h : frame.IsIndexed) {e : Error} :
    frame.accept name = .error e ↔ (name ∈ frame.names ∧ e = .nameAlreadyPresent name) ∨
      (name ∉ frame.names ∧ frame.ids.add name = .error e) := by
  unfold accept
  rcases hcontains : frame.contains name
  · simp [h.contains_eq_false_iff.1 hcontains]
  · simp [h.contains_iff.1 hcontains, eq_comm]

/-- A name that the table knows is only rejected if the frame has it. -/
theorem eq_nameAlreadyPresent_of_accept (hid : frame.ids.id? name = some id) {e : Error}
    (haccept : frame.accept name = .error e) : e = .nameAlreadyPresent name := by
  unfold accept at haccept
  split at haccept
  · cases haccept
    rfl
  · cases haccept.symm.trans (IdTable.add_of_id? hid)

/-- A collection with a new name gets a number that no other collection has, and both are found
behind the positions of the others. -/
theorem IsIndexed.push (h : frame.IsIndexed) (hbuilt : frame.ids.Built)
    (hnumbered : frame.IsNumbered) (hnew : name ∉ frame.names)
    (hadd : frame.ids.add name = .ok (id, ids)) (c : CollectionKey) :
    ({ frame with ids }.push name id c).IsIndexed where
  byName asked i := by
    change (frame.byName.insert name frame.slots.length).get? asked = some i ↔
      ∃ d, (frame.slots ++ [(name, c)])[i]? = some (asked, d)
    simp only [Positions.get?_insert, getElem?_concat_eq_some_iff]
    split
    case isTrue heq =>
      subst heq
      constructor
      · rintro ⟨⟩
        exact ⟨c, .inr ⟨rfl, rfl⟩⟩
      · rintro ⟨d, hold | ⟨rfl, -⟩⟩
        · exact absurd (List.mem_map_of_mem (List.mem_of_getElem? hold)) hnew
        · rfl
    case isFalse hne =>
      simp [h.byName, Ne.symm hne]
  byId asked i := by
    change (frame.byId.insert id frame.slots.length).get? asked = some i ↔
      ∃ other d, (frame.slots ++ [(name, c)])[i]? = some (other, d) ∧ ids.id? other = some asked
    have hself : ids.id? name = some id := IdTable.id?_add_self hadd
    have hwell : ids.WellNumbered := (IdTable.Built.add hbuilt hadd).wellNumbered
    simp only [Positions.get?_insert, getElem?_concat_eq_some_iff]
    split
    case isTrue heq =>
      subst heq
      constructor
      · rintro ⟨⟩
        exact ⟨name, c, .inr ⟨rfl, rfl⟩, hself⟩
      · rintro ⟨other, d, hold | ⟨rfl, -⟩, hid⟩
        -- a collection that was there before has another name, so it has another number
        · have hname := IdTable.name_eq_of_id? hwell hid hself
          subst hname
          exact absurd (List.mem_map_of_mem (List.mem_of_getElem? hold)) hnew
        · rfl
    case isFalse hne =>
      rw [h.byId]
      constructor
      · rintro ⟨other, d, hold, hid⟩
        exact ⟨other, d, .inl hold, IdTable.id?_add_of_id? hadd hid⟩
      · rintro ⟨other, d, hold | ⟨-, heq⟩, hid⟩
        · obtain ⟨old, hnumber⟩ := hnumbered other (List.mem_map_of_mem (List.mem_of_getElem? hold))
          cases (IdTable.id?_add_of_id? hadd hnumber).symm.trans hid
          exact ⟨other, d, hold, hnumber⟩
        · cases heq
          exact absurd (Option.some.inj (hself.symm.trans hid)).symm hne

/-- The frame finds its collections, and its table knows their names. -/
structure IsSound (frame : Frame) : Prop where
  indexed : frame.IsIndexed
  numbered : frame.IsNumbered
  built : frame.ids.Built

theorem isSound_of_slots_nil (hslots : frame.slots = []) (hbyName : frame.byName = .empty)
    (hbyId : frame.byId = .empty) (hbuilt : frame.ids.Built) : frame.IsSound where
  indexed := isIndexed_of_slots_nil hslots hbyName hbyId
  numbered name hname := by
    rw [names, hslots] at hname
    cases hname
  built := hbuilt

theorem IsSound.push (h : frame.IsSound) (haccept : frame.accept name = .ok (id, ids))
    (c : CollectionKey) : ({ frame with ids }.push name id c).IsSound := by
  obtain ⟨hfresh, hadd⟩ := accept_eq_ok_iff.1 haccept
  have hnew := h.indexed.contains_eq_false_iff.1 hfresh
  refine ⟨h.indexed.push h.built h.numbered hnew hadd c, ?_, h.built.add hadd⟩
  intro other hother
  obtain ⟨⟨other, d⟩, hslot, rfl⟩ := List.mem_map.1 hother
  rcases List.mem_append.1 hslot with hold | hlast
  · obtain ⟨old, hid⟩ := h.numbered other (List.mem_map_of_mem hold)
    exact ⟨old, IdTable.id?_add_of_id? hadd hid⟩
  · cases List.mem_singleton.1 hlast
    exact ⟨id, IdTable.id?_add_self hadd⟩

/-- A name that the table knows but no collection has is accepted, and the table stays as it is. -/
theorem IsSound.accept_of_id? (h : frame.IsSound) (hnew : name ∉ frame.names)
    (hid : frame.ids.id? name = some id) : frame.accept name = .ok (id, frame.ids) :=
  accept_eq_ok_iff.2 ⟨h.indexed.contains_eq_false_iff.2 hnew, IdTable.add_of_id? hid⟩

/-! ## Taking a collection out of a frame -/

/-- Collections with distinct names have distinct numbers, so entering all of them finds each where
it stands. -/
theorem isIndexed_reindex (hnodup : frame.names.Nodup) (hbuilt : frame.ids.Built)
    {numberOf : CollectionKey → CollectionId}
    (hnumbers : ∀ name c, (name, c) ∈ frame.slots → frame.ids.id? name = some (numberOf c)) :
    (frame.reindex numberOf).IsIndexed where
  byName asked i := by
    refine (Positions.get?_ofList_iff hnodup).trans ?_
    rw [names, List.getElem?_map, Option.map_eq_some_iff]
    constructor
    · rintro ⟨⟨name, c⟩, hslot, rfl⟩
      exact ⟨c, hslot⟩
    · rintro ⟨c, hslot⟩
      exact ⟨(asked, c), hslot, rfl⟩
  byId asked i := by
    have hinj : ∀ slot ∈ frame.slots, ∀ slot' ∈ frame.slots,
        numberOf slot.2 = numberOf slot'.2 → slot = slot' := by
      intro slot hslot slot' hslot' heq
      have hid := hnumbers slot.1 slot.2 hslot
      rw [heq] at hid
      have hname := IdTable.name_eq_of_id? hbuilt.wellNumbered hid (hnumbers _ _ hslot')
      exact List.inj_on_of_nodup_map hnodup hslot hslot' hname
    have hdistinct : (frame.slots.map fun slot => numberOf slot.2).Nodup :=
      List.Nodup.map_on hinj hnodup.of_map
    refine (Positions.get?_ofList_iff hdistinct).trans ?_
    rw [List.getElem?_map, Option.map_eq_some_iff]
    constructor
    · rintro ⟨⟨name, c⟩, hslot, rfl⟩
      exact ⟨name, c, hslot, hnumbers name c (List.mem_of_getElem? hslot)⟩
    · rintro ⟨name, c, hslot, hid⟩
      have hnumber := (hnumbers name c (List.mem_of_getElem? hslot)).symm.trans hid
      exact ⟨(name, c), hslot, Option.some.inj hnumber⟩

theorem IsIndexed.removeAt (h : frame.IsIndexed) (hbuilt : frame.ids.Built)
    {numberOf : CollectionKey → CollectionId}
    (hnumbers : ∀ name c, (name, c) ∈ frame.slots → frame.ids.id? name = some (numberOf c))
    (i : Nat) : (frame.removeAt i numberOf).IsIndexed := by
  have hsublist : (frame.slots.eraseIdx i).Sublist frame.slots := List.eraseIdx_sublist _ i
  have hnodup : ({ frame with slots := frame.slots.eraseIdx i } : Frame).names.Nodup :=
    (hsublist.map Prod.fst).nodup h.nodup_names
  exact isIndexed_reindex hnodup hbuilt fun name c hslot =>
    hnumbers name c (hsublist.subset hslot)

/-- The collections that are left are those with other names. -/
theorem eraseIdx_slots {slots : List (String × CollectionKey)} (hnodup : (slots.map (·.1)).Nodup)
    (hslot : slots[i]? = some (name, c)) : slots.eraseIdx i = slots.filter (·.1 != name) := by
  induction slots generalizing i with
  | nil => cases hslot
  | cons head rest ih =>
    rw [List.map_cons, List.nodup_cons] at hnodup
    cases i with
    | zero =>
      cases hslot
      have hothers : ∀ slot ∈ rest, slot.1 ≠ name := by
        rintro slot hmem rfl
        exact hnodup.1 (List.mem_map.2 ⟨slot, hmem, rfl⟩)
      rw [List.eraseIdx_cons_zero, List.filter_cons_of_neg (by simp), List.filter_eq_self.2]
      intro slot hmem
      simpa using hothers slot hmem
    | succ i =>
      rw [List.getElem?_cons_succ] at hslot
      have hne : head.1 ≠ name := fun heq =>
        hnodup.1 (heq ▸ List.mem_map_of_mem (List.mem_of_getElem? hslot))
      rw [List.eraseIdx_cons_succ, List.filter_cons_of_pos (by simpa using hne), ih hnodup.2 hslot]

end Frame
end EventModel
