import EventModel.Proofs.Store.Numbering
import EventModel.Proofs.Store.Renumbering
import EventModel.Proofs.Store.RoundTrip

/-!
# Lookup in a frame

A frame finds a collection by its name and by its number, and an object by its address. Names and
numbers are entered with the positions of the collections, which shift whenever a collection is taken
out. They agree at all times (`coherent_of_reachable`), although names are reused and their numbers
stay reserved while nothing has them. A collection that is taken out and put back under its name only
moves to the end.
-/

namespace EventModel

/-- The entries with the entries of one name at the end. -/
def moveToEnd {α : Type} (name : String) (entries : List (String × α)) : List (String × α) :=
  entries.filter (·.1 != name) ++ entries.filter (·.1 == name)

section MoveToEnd

variable {α β : Type} {name : String}

theorem filter_eq_singleton {entries : List (String × α)} (hnodup : (entries.map (·.1)).Nodup)
    {a : α} (h : (name, a) ∈ entries) : entries.filter (·.1 == name) = [(name, a)] := by
  induction entries with
  | nil => cases h
  | cons entry rest ih =>
    rw [List.map_cons, List.nodup_cons] at hnodup
    rcases List.mem_cons.1 h with rfl | hrest
    · have hnone : rest.filter (·.1 == name) = [] := by
        rw [List.filter_eq_nil_iff]
        intro other hother heq
        refine hnodup.1 (List.mem_map.2 ⟨other, hother, ?_⟩)
        simpa using heq
      rw [List.filter_cons_of_pos (by simp), hnone]
    · have hne : entry.1 ≠ name := by
        rintro rfl
        exact hnodup.1 (List.mem_map.2 ⟨_, hrest, rfl⟩)
      rw [List.filter_cons_of_neg (by simpa using hne), ih hnodup.2 hrest]

/-- Entries that are related name by name are so after the move. -/
theorem forall₂_moveToEnd {R : String × α → String × β → Prop}
    (hR : ∀ x y, R x y → y.1 = x.1) {xs : List (String × α)} {ys : List (String × β)}
    (h : List.Forall₂ R xs ys) : List.Forall₂ R (moveToEnd name xs) (moveToEnd name ys) := by
  refine List.rel_append (List.rel_filter ?_ h) (List.rel_filter ?_ h)
  · intro x y hxy
    change (x.1 != name) = true ↔ (y.1 != name) = true
    rw [hR x y hxy]
  · intro x y hxy
    change (x.1 == name) = true ↔ (y.1 == name) = true
    rw [hR x y hxy]

end MoveToEnd

namespace Store

variable {s s' : Store} {f : FrameKey} {frame : Frame} {name : String} {c d : CollectionKey}
  {col other : Collection} {id : ObjectId} {k k' : ObjectKey}

/-! ## Finding collections and objects -/

/-- No subset collection of the frame has the number. -/
def AvoidsSubsets (s : Store) (frame : Frame) (n : CollectionId) : Prop :=
  ∀ slot ∈ frame.slots, ∀ col ∈ s.collections.get? slot.2, col.id = n → col.isSubset = false

instance (frame : Frame) (n : CollectionId) : Decidable (s.AvoidsSubsets frame n) :=
  inferInstanceAs (Decidable (∀ slot ∈ frame.slots, ∀ col ∈ s.collections.get? slot.2,
    col.id = n → col.isSubset = false))

/-- A number that is reserved for a name finds nothing unless a collection has the name. -/
theorem resolver_eq_none (h : WellFormed s) (hframe : s.frames.get? f = some frame)
    (hname : name ∉ frame.names) {n : CollectionId} (hn : frame.ids.id? name = some n) :
    frame.resolver n = none := by
  rcases hfound : frame.resolver n with _ | c
  · rfl
  · obtain ⟨name', hslot, hid⟩ := (h.indexed f frame hframe).resolver_iff.1 hfound
    have hsame := IdTable.name_eq_of_id? (h.ids f frame hframe).wellNumbered hn hid
    exact absurd (hsame ▸ List.mem_map_of_mem hslot) hname

/-- The object found for an address is one that the frame holds, and the address is its own. -/
theorem idOf_of_resolveObject (h : WellFormed s) (hframe : s.frames.get? f = some frame)
    (hnormal : s.AvoidsSubsets frame id.collection)
    (hk : s.resolveObject frame.resolver id = .ok k) :
    s.IsHeldIn frame k ∧ s.idOf (some k) = .ok id := by
  rcases resolveObject_eq_ok_iff.1 hk with ⟨c, col, i, hresolver, hcol, hposition, hplace⟩
  rcases (resolver_eq_some_iff h hframe).1 hresolver with ⟨name, col', hslot, hcol', hnumber⟩
  cases hcol.symm.trans hcol'
  rcases owned_of_objectAtPosition h hcol (hnormal (name, c) hslot col hcol hnumber) hplace
    with ⟨o, ho, htracking⟩
  refine ⟨⟨(name, c), hslot, ownerOf?_of_tracking ho htracking⟩, linkId_eq_ok ?_⟩
  rw [linkId_of_owned ho htracking, addressOf_of_owned htracking hcol, hnumber,
    ObjectId.ofPosition_of_position? hposition]

/-- The address of an object that the frame holds finds it there. -/
theorem resolveObject_of_idOf (h : WellFormed s) (hframe : s.frames.get? f = some frame)
    (hpositions : s.HasPositions frame) (hk : s.IsHeldIn frame k) (hid : s.idOf (some k) = .ok id) :
    s.resolveObject frame.resolver id = .ok k := by
  rcases hk.linkId h hframe hpositions with ⟨id', hlink, -⟩
  cases hid.symm.trans (linkId_eq_ok hlink)
  exact hk.resolveObject h hframe hpositions hlink

/-! ## Renumbering without effect -/

namespace Renumbers

theorem idOf_self (h : Renumbers s s' c col col.id) (k : ObjectKey) :
    s'.idOf (some k) = s.idOf (some k) := by
  have havailable : s'.available (some k) = s.available (some k) := by
    simp only [available, Option.bind_some, h.objects]
  rcases hsome : s.available (some k) with e | o
  · rw [Store.idOf, Store.idOf, havailable, hsome]
    rfl
  · rcases available_eq_ok hsome with ⟨k', hk', ho, -⟩
    cases hk'
    have haddress : s'.addressOf o = s.addressOf o := by
      rw [h.addressOf ho, renumberedId]
      split
      · rename_i howner
        rcases htracking : o.tracking with n | ⟨d, i⟩ | _
        · simp [ownerOf?, ho, Object.owner?, htracking] at howner
        · cases (ownerOf?_of_tracking ho htracking).symm.trans howner
          rw [addressOf_of_owned htracking h.before]
          rfl
        · simp [ownerOf?, ho, Object.owner?, htracking] at howner
      · rfl
    rw [Store.idOf, Store.idOf, havailable, hsome]
    exact congrArg Except.ok haddress

/-- A collection that gets the number it has is still written as before, and so are all others. -/
theorem flatten_self (h : Renumbers s s' c col col.id) {b : Buffers}
    (hflat : s.flatten d = .ok b) : s'.flatten d = .ok b := by
  rcases bind_eq_ok_iff.1 hflat with ⟨other, hd, hbuffers⟩
  rcases h.collection (collection_eq_ok_iff.1 hd) with ⟨generation, prepared, hd'⟩
  refine bind_eq_ok_iff.2 ⟨_, collection_eq_ok_iff.2 hd', ?_⟩
  have hlink : ∀ k, s'.linkId k = s.linkId k := by
    intro k
    rw [Store.linkId, Store.linkId, h.existsObject, h.idOf_self]
  unfold flattenCollection at hbuffers ⊢
  dsimp only
  rcases hstorage : other.storage with objects | slots
  · simp only [hstorage] at hbuffers ⊢
    rcases bind_eq_ok_iff.1 hbuffers with ⟨rows, hrows, heq⟩
    refine bind_eq_ok_iff.2 ⟨rows, flattenObjects_congr ?_ hrows, heq⟩
    intro k _ extents position row hrow
    rcases flattens_of_flattenObject hrow with ⟨body, hflattens⟩
    exact flattenObject_of_flattens
      (hflattens.congr (h.body _ k) (h.originOf _ k) fun k' _ => hlink k')
  · simp only [hstorage] at hbuffers ⊢
    rcases bind_eq_ok_iff.1 hbuffers with ⟨ids, hids, heq⟩
    refine bind_eq_ok_iff.2 ⟨ids, ?_, heq⟩
    rw [← hids]
    refine mapM_congr fun slot _ => ?_
    cases slot with
    | pending id => rfl
    | linked k => exact h.idOf_self k

end Renumbers

/-! ## Taking a collection out and putting it back -/

/-- The store in which a frame does not hold the collection at a position any more. -/
def withoutSlot (s : Store) (f : FrameKey) (position : Nat) : Store :=
  s.modifyFrame f fun frame => frame.removeAt position s.numberOf

theorem withoutSlot_get?_frame (hframe : s.frames.get? f = some frame) (position : Nat) :
    (s.withoutSlot f position).frames.get? f = some (frame.removeAt position s.numberOf) :=
  Arena.get?_modify_self hframe _

section Slot

variable {position : Nat}

theorem take_apply (h : WellFormed s) (hframe : s.frames.get? f = some frame)
    (hslot : frame.slots[position]? = some (name, c)) (hcol : s.collections.get? c = some col) :
    take col.type f name s = (.ok (some c), s.withoutSlot f position) := by
  have htyped : s.collectionAs col.type c = .ok col := by
    refine bind_eq_ok_iff.2 ⟨col, collection_eq_ok_iff.2 hcol, ?_⟩
    rw [if_pos rfl]
    rfl
  rw [take, get_bind_apply, bind_apply, ask_apply, frame_eq_ok_iff.2 hframe]
  dsimp only
  rw [(h.indexed f frame hframe).find?_iff.2 hslot]
  dsimp only
  rw [get_bind_apply, bind_apply, ask_apply, htyped]
  rfl

/-- The collections that are left are those with other names. -/
theorem removeAt_slots (h : WellFormed s) (hframe : s.frames.get? f = some frame)
    (hslot : frame.slots[position]? = some (name, c)) :
    (frame.removeAt position s.numberOf).slots = frame.slots.filter (·.1 != name) :=
  Frame.eraseIdx_slots (h.names f frame hframe) hslot

theorem not_mem_names_removeAt (h : WellFormed s) (hframe : s.frames.get? f = some frame)
    (hslot : frame.slots[position]? = some (name, c)) :
    name ∉ (frame.removeAt position s.numberOf).names := by
  rw [Frame.names, removeAt_slots h hframe hslot]
  intro hmem
  rcases List.mem_map.1 hmem with ⟨slot, hother, heq⟩
  have hne := (List.mem_filter.1 hother).2
  simp [heq] at hne

/-- A collection that was taken out of its frame is in no frame. -/
theorem isLoose_withoutSlot (h : WellFormed s) (hframe : s.frames.get? f = some frame)
    (hslot : frame.slots[position]? = some (name, c)) (hcol : s.collections.get? c = some col) :
    (s.withoutSlot f position).isLoose c = true := by
  have hmem := List.mem_of_getElem? hslot
  refine isLoose_of_get? ?_ hcol
  intro f' frame' name' hframe' hslot'
  rcases Arena.get?_modify_eq_some hframe' with ⟨rfl, old, hold, rfl⟩ | ⟨hne, hold⟩
  · cases hframe.symm.trans hold
    rw [removeAt_slots h hframe hslot] at hslot'
    rcases List.mem_filter.1 hslot' with ⟨hslot', hname⟩
    have hsame := (h.holder f frame name f frame name' c hframe hframe hmem hslot').2
    simp [hsame] at hname
  · exact hne (h.holder f frame name f' frame' name' c hframe hold hmem hslot').1

end Slot

/-- What a frame, its objects and its flat form are once the collection with a name was taken out
and put back. -/
structure PutBack (s s' : Store) (f : FrameKey) (frame : Frame) (name : String) : Prop where
  /-- Only the order of the collections differs, and their positions with it. -/
  frame : ∃ frame', s'.frames.get? f = some frame' ∧ frame'.slots = moveToEnd name frame.slots ∧
    frame'.ids = frame.ids ∧ frame'.parameters = frame.parameters ∧ frame'.config = frame.config ∧
    frame'.IsIndexed
  addresses : ∀ k, s'.idOf (some k) = s.idOf (some k)
  written : ∀ d, (writeFrame f s).1 = .ok d →
    (writeFrame f s').1 = .ok { d with collections := moveToEnd name d.collections }

theorem exists_putBack (h : Reachable s) (hframe : s.frames.get? f = some frame)
    (hslot : (name, c) ∈ frame.slots) (hcol : s.collections.get? c = some col) :
    ∃ taken s', take col.type f name s = (.ok (some c), taken) ∧
      put f name c taken = (.ok col.id, s') ∧ PutBack s s' f frame name := by
  have hwell := h.wellFormed
  rcases List.mem_iff_getElem?.1 hslot with ⟨position, hposition⟩
  rcases hwell.held f frame name c hframe hslot with ⟨col', hcol', hid⟩
  cases hcol.symm.trans hcol'
  have htake := take_apply hwell hframe hposition hcol
  have hloose := isLoose_withoutSlot hwell hframe hposition hcol
  have htaken : Reachable (s.withoutSlot f position) := by
    have hstep : Step s (take col.type f name s).2 := .take col.type f name
    rw [htake] at hstep
    exact h.step hstep
  -- the table still knows the name, so the collection gets the number that it has
  have hframe₁ := withoutSlot_get?_frame hframe position
  have haccept : (frame.removeAt position s.numberOf).accept name = .ok (col.id, frame.ids) := by
    refine Frame.accept_eq_ok_iff.2 ⟨?_, IdTable.add_of_id? hid⟩
    exact (htaken.wellFormed.indexed f _ hframe₁).contains_eq_false_iff.2
      (not_mem_names_removeAt hwell hframe hposition)
  have hput := put_apply_of_ok c hframe₁ haccept
  have hreachable : Reachable ((s.withoutSlot f position).withPut f name c col.id frame.ids) := by
    have hstep := Step.put f name c hloose
    rw [hput] at hstep
    exact htaken.step hstep
  have hrenumbers : Renumbers s ((s.withoutSlot f position).withPut f name c col.id frame.ids) c col
      col.id :=
    ⟨rfl, rfl, hcol, Arena.get?_modify_self hcol _, fun _ hd => Arena.get?_modify_ne hd.symm _⟩
  have hframe' := withPut_get?_frame name c col.id hframe₁ frame.ids
  have hslots : (frame.removeAt position s.numberOf).slots ++ [(name, c)] =
      moveToEnd name frame.slots := by
    rw [removeAt_slots hwell hframe hposition, moveToEnd,
      filter_eq_singleton (hwell.names f frame hframe) hslot]
  refine ⟨_, _, htake, hput, ?_, hrenumbers.idOf_self, ?_⟩
  · exact ⟨_, hframe', hslots, rfl, rfl, rfl, hreachable.wellFormed.indexed f _ hframe'⟩
  -- every collection is written as before, and the entries move as the slots do
  intro d hwrite
  rcases (writeFrame_fst_eq_ok_iff h).1 hwrite with ⟨old, hold, hids, hparameters, hall⟩
  cases hframe.symm.trans (frame_eq_ok_iff.1 hold)
  refine (writeFrame_fst_eq_ok_iff hreachable).2
    ⟨_, frame_eq_ok_iff.2 hframe', hids, hparameters, ?_⟩
  change List.Forall₂ _ ((frame.removeAt position s.numberOf).slots ++ [(name, c)]) _
  rw [hslots]
  refine forall₂_moveToEnd (fun _ _ hentry => hentry.1) (hall.imp ?_)
  intro slot entry hentry
  exact ⟨hentry.1, hrenumbers.flatten_self hentry.2⟩

/-! ## Coherence -/

/-- Positions, names, numbers and addresses agree in a frame. -/
structure Coherent (s : Store) (f : FrameKey) (frame : Frame) : Prop where
  names : frame.names.Nodup
  /-- A name is entered with the position of the collection that has it, and with no other. -/
  byName : ∀ name i, frame.byName.get? name = some i ↔ ∃ c, frame.slots[i]? = some (name, c)
  /-- A number is entered with the position of the collection that has it, and with no other. -/
  byId : ∀ id i, frame.byId.get? id = some i ↔ ∃ name c col, frame.slots[i]? = some (name, c) ∧
    s.collections.get? c = some col ∧ col.id = id
  /-- A collection of the frame is found by its name and by its number, which is that of its name. -/
  held : ∀ name c, (name, c) ∈ frame.slots → ∃ col, s.collections.get? c = some col ∧
    frame.collection? name = some c ∧ frame.resolver col.id = some c ∧
      frame.ids.id? name = some col.id
  /-- Nothing is found by a name that no collection has, nor by the number reserved for it. -/
  absent : ∀ name, name ∉ frame.names → frame.collection? name = none ∧
    ∀ n, frame.ids.id? name = some n → frame.resolver n = none
  /-- An address finds the object of the frame that has it. -/
  objects : ∀ id k, s.AvoidsSubsets frame id.collection →
    (s.resolveObject frame.resolver id = .ok k ↔
      s.IsHeldIn frame k ∧ s.idOf (some k) = .ok id)
  /-- Different objects of the frame have different addresses. -/
  distinct : ∀ id k k', s.IsHeldIn frame k → s.IsHeldIn frame k' → s.idOf (some k) = .ok id →
    s.idOf (some k') = .ok id → k = k'
  /-- A collection can be taken out and put back, and then only its place in the order differs. -/
  restored : ∀ name c col, (name, c) ∈ frame.slots → s.collections.get? c = some col →
    ∃ taken s', take col.type f name s = (.ok (some c), taken) ∧
      put f name c taken = (.ok col.id, s') ∧ PutBack s s' f frame name

/-- A number is entered with the position of the collection that has it. -/
theorem byId_iff (h : WellFormed s) (hframe : s.frames.get? f = some frame) (n : CollectionId)
    (i : Nat) : frame.byId.get? n = some i ↔ ∃ name c col, frame.slots[i]? = some (name, c) ∧
      s.collections.get? c = some col ∧ col.id = n := by
  rw [(h.indexed f frame hframe).byId]
  constructor
  · rintro ⟨name, c, hslot, hid⟩
    obtain ⟨col, hcol, hnumber⟩ := h.held f frame name c hframe (List.mem_of_getElem? hslot)
    exact ⟨name, c, col, hslot, hcol, Option.some.inj (hnumber.symm.trans hid)⟩
  · rintro ⟨name, c, col, hslot, hcol, rfl⟩
    obtain ⟨col', hcol', hnumber⟩ := h.held f frame name c hframe (List.mem_of_getElem? hslot)
    cases hcol.symm.trans hcol'
    exact ⟨name, c, hslot, hnumber⟩

/-- In every frame, the positions entered for names and for numbers are those of the collections that
have them, so that lookup by name, by number and by address agree, and taking a collection out is
undone by putting it back. -/
theorem coherent_of_reachable (h : Reachable s) (hframe : s.frames.get? f = some frame)
    (hpositions : s.HasPositions frame) : Coherent s f frame where
  names := h.wellFormed.names f frame hframe
  byName := (h.wellFormed.indexed f frame hframe).byName
  byId := byId_iff h.wellFormed hframe
  held name c hslot := by
    rcases h.wellFormed.held f frame name c hframe hslot with ⟨col, hcol, hid⟩
    exact ⟨col, hcol, collection?_of_mem h.wellFormed hframe hslot,
      resolver_eq_some h.wellFormed hframe hslot hcol, hid⟩
  absent name hname :=
    ⟨(h.wellFormed.indexed f frame hframe).collection?_eq_none_iff.2 hname,
      fun n hn => resolver_eq_none h.wellFormed hframe hname hn⟩
  objects id k hnormal :=
    ⟨idOf_of_resolveObject h.wellFormed hframe hnormal, fun ⟨hk, hid⟩ =>
      resolveObject_of_idOf h.wellFormed hframe hpositions hk hid⟩
  distinct id k k' hk hk' hid hid' := by
    have hfirst := resolveObject_of_idOf h.wellFormed hframe hpositions hk hid
    have hsecond := resolveObject_of_idOf h.wellFormed hframe hpositions hk' hid'
    exact Except.ok.inj (hfirst.symm.trans hsecond)
  restored name c col hslot hcol := exists_putBack h hframe hslot hcol

/-- The frame with its first collection taken out of it. -/
def shiftedStore : Store :=
  (take meshType 0 "picked" linkedStore).2

def shiftedFrame : Frame :=
  (shiftedStore.frames.get? 0).get (by decide +kernel)

/-- The positions of both collections are entered, and that of the one that moved up is entered
anew. -/
theorem coherent_of_reachable_linkedFrame :
    Coherent linkedStore 0 linkedFrame ∧ linkedFrame.byName.get? "all" = some 1 ∧
      Coherent shiftedStore 0 shiftedFrame ∧ shiftedFrame.names = ["all"] ∧
      shiftedFrame.byName.get? "all" = some 0 := by
  have hshifted : Reachable shiftedStore :=
    reachable_linkedStore.step (.take meshType 0 "picked")
  have hpositions : linkedStore.HasPositions linkedFrame := by decide +kernel
  have hpositions' : shiftedStore.HasPositions shiftedFrame := by decide +kernel
  exact ⟨coherent_of_reachable reachable_linkedStore (Option.some_get _).symm hpositions,
    by decide +kernel, coherent_of_reachable hshifted (Option.some_get _).symm hpositions',
    by decide +kernel, by decide +kernel⟩

end Store
end EventModel
