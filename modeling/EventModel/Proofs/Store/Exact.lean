import EventModel.Proofs.Store.Closed
import EventModel.Proofs.Store.Failures
import EventModel.Proofs.Store.PrivateLinks

/-!
# Exactly what a collection is written to

A normal collection is written exactly if everything that its relations lead to has an address, no
address that waits with it is an untracked one, and no column is too long (`flatten_exact`). What is
written then is nothing but the payloads, the addresses of the present targets and the elements of the
vector members, object by object, and each record has the window of its own part of each column.
-/

namespace EventModel

variable {α : Type} {e : Error}

theorem Window.ofExtent_eq_error {start count : Nat} (h : Window.ofExtent start count = .error e) :
    (∃ reason, e = .corruptBuffer reason) ∧ columnLimit ≤ start + count := by
  have hlimit : columnLimit ≤ start + count := by
    by_contra hlt
    rw [Window.ofExtent_eq_ok_iff.2 ⟨Nat.lt_of_not_le hlt, rfl⟩] at h
    cases h
  have hreason : ∀ {position : Nat} {e : Error}, columnOffset position = .error e →
      ∃ reason, e = .corruptBuffer reason := by
    intro position e h
    unfold columnOffset at h
    split at h
    · cases h
    · exact ⟨_, (Except.error.inj h).symm⟩
  rcases bind_eq_error_iff.1 h with hfirst | ⟨first, -, h⟩
  · exact ⟨hreason hfirst, hlimit⟩
  · rcases bind_eq_error_iff.1 h with hlast | ⟨last, -, h⟩
    · exact ⟨hreason hlast, hlimit⟩
    · cases h

/-- The bounds of a window among others that tile a column are the lengths of the segments before it
and up to its own. -/
theorem Tiles.bounds_of_getElem? {start i : Nat} {entries : List (Window × List α)}
    {w : Window} {segment : List α} (h : Tiles start entries) (hi : entries[i]? = some (w, segment)) :
    w.start.toNat = start + (columnOf (entries.take i)).length ∧
      w.stop.toNat = start + (columnOf (entries.take (i + 1))).length := by
  induction h generalizing i with
  | nil => simp at hi
  | @cons start w' segment' rest hstart hstop _ ih =>
    cases i with
    | zero =>
      cases Option.some.inj hi
      simp [columnOf, hstart, hstop]
    | succ i =>
      rcases ih (by simpa using hi) with ⟨hfirst, hlast⟩
      simp only [List.take_succ_cons, columnOf_cons, List.length_append] at hfirst hlast ⊢
      omega

namespace Store

variable {s : Store} {t : DataType} {c : CollectionKey} {k k' : ObjectKey} {col : Collection}
  {body : Body t} {origin : Option (Origin t)} {extents : Extents t} {position : Nat}

/-! ## What can be stored -/

/-- A link to the object can be stored: the object exists, was not released, and a collection owns
it. -/
structure IsStorable (s : Store) (k : ObjectKey) : Prop where
  present : s.existsObject k = true
  available : s.isAvailable (some k) = true
  tracked : s.isTracked (some k) = true

instance (k : ObjectKey) : Decidable (s.IsStorable k) :=
  decidable_of_iff (s.existsObject k = true ∧ s.isAvailable (some k) = true ∧
      s.isTracked (some k) = true)
    ⟨fun ⟨hpresent, havailable, htracked⟩ => ⟨hpresent, havailable, htracked⟩,
      fun h => ⟨h.present, h.available, h.tracked⟩⟩

theorem isStorable_iff :
    s.IsStorable k ↔ ∃ id, s.linkId k = .ok id ∧ id.isUntracked = false := by
  constructor
  · rintro ⟨hpresent, -, htracked⟩
    rcases hid : s.idOf (some k) with e | id
    · simp [isTracked, hid] at htracked
    · refine ⟨id, ?_, ?_⟩
      · rw [linkId, if_pos hpresent, hid]
      · simpa [isTracked, hid] using htracked
  · rintro ⟨id, hlink, htracked⟩
    have hid := linkId_eq_ok hlink
    rcases idOf_eq_ok hid with ⟨o, ho, hreleased, -⟩
    refine ⟨?_, ?_, ?_⟩
    · by_contra hnot
      rw [linkId, if_neg hnot] at hlink
      cases hlink
    · simp [isAvailable, ho, hreleased]
    · simp [isTracked, hid, htracked]

theorem linkId_eq_error (h : s.linkId k = .error e) : e = .unavailable := by
  unfold linkId at h
  split at h
  · unfold idOf at h
    rcases havailable : s.available (some k) with e' | o
    · rw [havailable] at h
      cases h
      exact available_eq_error havailable
    · rw [havailable] at h
      cases h
  · exact (Except.error.inj h).symm

/-! ## The elements of the columns -/

/-- The address that an object has now. -/
def presentId (s : Store) (k : ObjectKey) : ObjectId :=
  (s.idOf (some k)).toOption.getD .untracked

/-- The addresses that stand for a to-many relation of an object: those of its targets or, before
resolution, those that its window selects. -/
def targetIds (s : Store) (t : DataType) (r : Fin t.toMany.length) (k : ObjectKey) :
    List ObjectId :=
  match s.body t k with
  | .error _ => []
  | .ok body =>
    match s.links k body r with
    | .ok targets => targets.map s.presentId
    | .error _ => s.waitingIds t r k

/-- The elements of a vector member of an object. -/
def memberValues (s : Store) (t : DataType) (m : Fin t.members.length) (k : ObjectKey) :
    List t.element.Value :=
  (s.members t (some k) m).toOption.getD []

/-- The address that stands for a to-one relation of the object at a position: that of its target or,
if it was not set since the collection was rebuilt, the one that is stored for it. -/
def targetId (s : Store) (origin : Option (Origin t)) (r : Fin t.toOne.length) (position : Nat)
    (k : ObjectKey) : ObjectId :=
  match s.body t k with
  | .error _ => .untracked
  | .ok body =>
    match body.toOne[r] with
    | some target => s.presentId target
    | none => (waitingId origin r position).getD .untracked

theorem presentId_of_linkId {id : ObjectId} (h : s.linkId k = .ok id) : s.presentId k = id := by
  rw [presentId, linkId_eq_ok h]
  rfl

theorem targetIds_of_links (hbody : s.body t k = .ok body) {r : Fin t.toMany.length}
    {ks : List ObjectKey} (hks : s.links k body r = .ok ks) :
    s.targetIds t r k = ks.map s.presentId := by
  simp only [targetIds, hbody, hks]

theorem memberValues_eq (hbody : s.body t k = .ok body) (m : Fin t.members.length) :
    s.memberValues t m k = body.members[m] := by
  rw [memberValues, members_eq_ok hbody m]
  rfl

theorem length_memberValues (m : Fin t.members.length) (k : ObjectKey) :
    (s.memberValues t m k).length = s.memberLength t m k := by
  unfold memberValues memberLength
  rcases s.members t (some k) m with e | values
  · rfl
  · rfl

/-- What stands for a to-many relation of a listed object has the length that the object shows. -/
theorem length_targetIds (h : WellFormed s) {i : Nat} (hbody : s.body t k = .ok body)
    (hlists : s.ListsAt c i k) (r : Fin t.toMany.length) :
    (s.targetIds t r k).length = s.relatedLength t r k := by
  have hcopy := hlists
  rcases hcopy with ⟨col, -, hcol, -⟩
  rcases links_cases h hbody hlists hcol r
    with ⟨ks, hks, hlength⟩ | ⟨windows, id, many, one, hmany, -, horigin, hfits, hsize⟩
  · rw [targetIds_of_links hbody hks, List.length_map, hlength]
  · have hwaits : s.links k body r = .error (.unresolvedReferences t.name id) := by
      simp only [links, hmany, horigin]
      rfl
    simp only [targetIds, hbody, hwaits]
    rw [waitingIds_of_stored hbody hmany horigin, Window.length_segment hfits, hsize]

/-- The addresses that are written for a relation are those that stand for it. -/
theorem eq_targetIds_of_relatedIds (hbody : s.body t k = .ok body) {r : Fin t.toMany.length}
    {ids : List ObjectId} (h : s.relatedIds k body r = .ok ids) : ids = s.targetIds t r k := by
  rcases relatedIds_cases h with ⟨ks, hks, hids⟩ | ⟨windows, id, many, one, hmany, horigin, hslice⟩
  · rw [targetIds_of_links hbody hks]
    rw [mapM_eq_ok_iff] at hids
    have heq : List.Forall₂ Eq (ks.map s.presentId) ids :=
      List.forall₂_map_left_iff.2 (hids.imp fun _ _ hlink => presentId_of_linkId hlink)
    rw [List.forall₂_eq_eq_eq] at heq
    exact heq.symm
  · have hwaits : s.links k body r = .error (.unresolvedReferences t.name id) := by
      simp only [links, hmany, horigin]
      rfl
    simp only [targetIds, hbody, hwaits]
    rw [waitingIds_of_stored hbody hmany horigin]
    exact (Window.slice_eq_ok_iff.1 hslice).2

/-! ## Why a collection is not written -/

/-- The errors with which a flat form is refused: a link leads nowhere, a relation would be stored as an
untracked address, or a column is too long. -/
def RefusesFlat (type : String) (overlong : Prop) (e : Error) : Prop :=
  e = .unavailable ∨ (∃ position relation, e = .unpersistableReference type position relation) ∨
    (∃ reason, e = .corruptBuffer reason) ∧ overlong

theorem RefusesFlat.imp {type : String} {p q : Prop} (hpq : p → q) (h : RefusesFlat type p e) :
    RefusesFlat type q e :=
  h.imp_right fun h => h.imp_right fun ⟨hreason, hp⟩ => ⟨hreason, hpq hp⟩

theorem relatedIds_eq_error (h : WellFormed s) {i : Nat} (hbody : s.body t k = .ok body)
    (hlists : s.ListsAt c i k) {r : Fin t.toMany.length}
    (herror : s.relatedIds k body r = .error e) : e = .unavailable := by
  have hcopy := hlists
  rcases hcopy with ⟨col, -, hcol, -⟩
  rcases links_cases h hbody hlists hcol r
    with ⟨ks, hks, -⟩ | ⟨windows, id, many, one, hmany, -, horigin, hfits, -⟩
  · rw [relatedIds_of_links hks] at herror
    rcases exists_of_mapM_eq_error herror with ⟨k', -, hlink⟩
    exact linkId_eq_error hlink
  · cases (relatedIds_of_stored hmany horigin hfits).symm.trans herror

theorem singleId_eq_error {overlong : Prop} {r : Fin t.toOne.length}
    (h : s.singleId origin position body r = .error e) : RefusesFlat t.name overlong e := by
  unfold singleId at h
  rcases hplace : body.toOne[r] with _ | target
  · rw [hplace] at h
    cases h
  · rw [hplace] at h
    rcases bind_eq_error_iff.1 h with hlink | ⟨id, -, h⟩
    · exact .inl (linkId_eq_error hlink)
    · split at h
      · cases h
        exact .inr (.inl ⟨_, _, rfl⟩)
      · cases h

/-- Some column is too long once the parts of the objects are added to it. -/
def Overlong (s : Store) (extents : Extents t) (keys : List ObjectKey) : Prop :=
  (∃ r : Fin t.toMany.length,
    columnLimit ≤ extents.toMany[r] + (keys.flatMap (s.targetIds t r)).length) ∨
  ∃ m : Fin t.members.length,
    columnLimit ≤ extents.members[m] + (keys.flatMap (s.memberValues t m)).length

theorem flattenObject_eq_error (h : WellFormed s) {i : Nat} (hbody : s.body t k = .ok body)
    (hlists : s.ListsAt c i k) (herror : s.flattenObject t origin extents position k = .error e) :
    RefusesFlat t.name (s.Overlong extents [k]) e := by
  rcases bind_eq_error_iff.1 herror with hfalse | ⟨body', hbody', hrest⟩
  · cases hbody.symm.trans hfalse
  · cases hbody.symm.trans hbody'
    rcases bind_eq_error_iff.1 hrest with hmany | ⟨pairs, -, hrest⟩
    · rcases exists_of_tryOfFn_eq_error hmany with ⟨r, hrelation⟩
      rcases bind_eq_error_iff.1 hrelation with hids | ⟨ids, hids, hrelation⟩
      · exact .inl (relatedIds_eq_error h hbody hlists hids)
      · split at hrelation
        · cases hrelation
          exact .inr (.inl ⟨_, _, rfl⟩)
        · rcases bind_eq_error_iff.1 hrelation with hwindow | ⟨w, -, hrelation⟩
          · rcases Window.ofExtent_eq_error hwindow with ⟨hreason, hlimit⟩
            rw [eq_targetIds_of_relatedIds hbody hids] at hlimit
            exact .inr (.inr ⟨hreason, .inl ⟨r, by simpa using hlimit⟩⟩)
          · cases hrelation
    · rcases bind_eq_error_iff.1 hrest with hmembers | ⟨windows, -, hrest⟩
      · rcases exists_of_tryOfFn_eq_error hmembers with ⟨m, hwindow⟩
        rcases Window.ofExtent_eq_error hwindow with ⟨hreason, hlimit⟩
        rw [← memberValues_eq hbody m] at hlimit
        exact .inr (.inr ⟨hreason, .inr ⟨m, by simpa using hlimit⟩⟩)
      · rcases bind_eq_error_iff.1 hrest with htoOne | ⟨ids, -, hrest⟩
        · rcases exists_of_tryOfFn_eq_error htoOne with ⟨r, hsingle⟩
          exact singleId_eq_error hsingle
        · cases hrest

/-! ## Object by object -/

namespace Flattens

variable {row : Row t}

theorem toMany_eq (h : s.Flattens origin extents position k body row) (r : Fin t.toMany.length) :
    row.toMany[r] = s.targetIds t r k :=
  eq_targetIds_of_relatedIds h.read (h.toMany r)

theorem members_eq (h : s.Flattens origin extents position k body row) (m : Fin t.members.length) :
    row.members[m] = s.memberValues t m k := by
  rw [memberValues_eq h.read, h.members]

theorem toOne_eq (h : s.Flattens origin extents position k body row) (r : Fin t.toOne.length) :
    row.toOne[r] = s.targetId origin r position k := by
  have hsingle := h.toOne r
  rcases hplace : body.toOne[r] with _ | target
  · simp only [singleId, hplace] at hsingle
    simp only [targetId, h.read, hplace]
    exact (Except.ok.inj hsingle).symm
  · simp only [targetId, h.read, hplace]
    exact (presentId_of_linkId ((singleId_eq_ok_of_some hplace).1 hsingle).1).symm

end Flattens

/-- Objects are refused as a whole if one of them is refused; a column is too long only if the parts of
all objects are. -/
theorem flattenObjects_eq_error (h : WellFormed s) {keys : List ObjectKey}
    (hkeys : ∀ k ∈ keys, ∃ (i : Nat) (body : Body t), s.ListsAt c i k ∧ s.body t k = .ok body)
    (herror : s.flattenObjects t origin extents position keys = .error e) :
    RefusesFlat t.name (s.Overlong extents keys) e := by
  -- on the objects that are left; the extents are what the objects before them take
  induction keys generalizing extents position with
  | nil => cases herror
  | cons k keys ih =>
    rcases hkeys k List.mem_cons_self with ⟨i, body, hlists, hbody⟩
    rcases bind_eq_error_iff.1 herror with hhead | ⟨row, hrow, hrest⟩
    · refine (flattenObject_eq_error h hbody hlists hhead).imp (Or.imp ?_ ?_)
      · rintro ⟨r, hlimit⟩
        refine ⟨r, Nat.le_trans hlimit ?_⟩
        simp [List.flatMap_cons]
      · rintro ⟨m, hlimit⟩
        refine ⟨m, Nat.le_trans hlimit ?_⟩
        simp [List.flatMap_cons]
    · rcases flattens_of_flattenObject hrow with ⟨body', hflattens⟩
      rcases bind_eq_error_iff.1 hrest with htail | ⟨rows, -, hrest⟩
      · refine (ih (fun k' hk' => hkeys k' (List.mem_cons_of_mem k hk')) htail).imp (Or.imp ?_ ?_)
        · rintro ⟨r, hlimit⟩
          -- what the first object takes counts for the objects after it
          rw [Extents.getElem_toMany_add, hflattens.toMany_eq] at hlimit
          exact ⟨r, by simpa [List.flatMap_cons, Nat.add_assoc] using hlimit⟩
        · rintro ⟨m, hlimit⟩
          rw [Extents.getElem_members_add, hflattens.members_eq] at hlimit
          exact ⟨m, by simpa [List.flatMap_cons, Nat.add_assoc] using hlimit⟩
      · cases hrest

namespace FlattensAll

variable {keys : List ObjectKey} {rows : List (Row t)}

theorem map_toMany (h : s.FlattensAll origin extents position keys rows)
    (r : Fin t.toMany.length) : rows.map (·.toMany[r]) = keys.map (s.targetIds t r) := by
  induction h with
  | nil => rfl
  | cons hrow _ ih => rw [List.map_cons, List.map_cons, hrow.toMany_eq r, ih]

theorem map_members (h : s.FlattensAll origin extents position keys rows)
    (m : Fin t.members.length) : rows.map (·.members[m]) = keys.map (s.memberValues t m) := by
  induction h with
  | nil => rfl
  | cons hrow _ ih => rw [List.map_cons, List.map_cons, hrow.members_eq m, ih]

theorem forall₂_payload (h : s.FlattensAll origin extents position keys rows) :
    List.Forall₂ (fun k row => s.payload t (some k) = .ok (Record.payload row.record)) keys rows := by
  induction h with
  | nil => exact .nil
  | cons hrow _ ih => exact .cons (by rw [payload_eq_ok hrow.read, hrow.payload]) ih

/-- No column of objects that were flattened is too long. -/
theorem not_overlong (h : s.FlattensAll origin extents position keys rows)
    (hmany : ∀ r : Fin t.toMany.length, extents.toMany[r] < columnLimit)
    (hmembers : ∀ m : Fin t.members.length, extents.members[m] < columnLimit) :
    ¬ s.Overlong extents keys := by
  -- on the rows: every window that was made ends within the limit
  induction h with
  | nil extents _ =>
    rintro (⟨r, hlimit⟩ | ⟨m, hlimit⟩)
    · exact absurd (hmany r) (Nat.not_lt.2 (by simpa using hlimit))
    · exact absurd (hmembers m) (Nat.not_lt.2 (by simpa using hlimit))
  | @cons extents _ k _ body row _ hrow _ ih =>
    have hrest := ih
      (fun r => by
        rw [Extents.getElem_toMany_add]
        exact (Window.ofExtent_eq_ok_iff.1 (hrow.relationWindows r)).1)
      (fun m => by
        have hwindow := hrow.memberWindows m
        rw [Extents.getElem_members_add, hrow.members]
        exact (Window.ofExtent_eq_ok_iff.1 hwindow).1)
    rintro (⟨r, hlimit⟩ | ⟨m, hlimit⟩)
    · refine hrest (.inl ⟨r, ?_⟩)
      rw [Extents.getElem_toMany_add, hrow.toMany_eq]
      simpa [List.flatMap_cons, Nat.add_assoc] using hlimit
    · refine hrest (.inr ⟨m, ?_⟩)
      rw [Extents.getElem_members_add, hrow.members_eq]
      simpa [List.flatMap_cons, Nat.add_assoc] using hlimit

theorem isStorable (h : s.FlattensAll origin extents position keys rows) (hk : k ∈ keys)
    (hk' : k' ∈ s.linkedObjects t k) : s.IsStorable k' := by
  rcases List.mem_iff_getElem?.1 hk with ⟨i, hi⟩
  rcases h.getElem?_of_key hi with ⟨row, extents', body, -, hflattens⟩
  exact isStorable_iff.2 (hflattens.linkId hk')

theorem waitingIds_tracked (h : s.FlattensAll origin extents position keys rows) (hk : k ∈ keys)
    (r : Fin t.toMany.length) : ∀ id ∈ s.waitingIds t r k, id.isUntracked = false := by
  rcases List.mem_iff_getElem?.1 hk with ⟨i, hi⟩
  rcases h.getElem?_of_key hi with ⟨row, extents', body, -, hflattens⟩
  rcases relatedIds_cases (hflattens.toMany r)
    with ⟨ks, hks, -⟩ | ⟨windows, id, many, one, hmany, horigin, hslice⟩
  · rw [waitingIds_of_links hflattens.read hks]
    simp
  · rw [waitingIds_of_stored hflattens.read hmany horigin, ← (Window.slice_eq_ok_iff.1 hslice).2]
    exact hflattens.tracked r

/-- The window of a record is the part of its column that belongs to its object. -/
theorem relationWindow_bounds (h : s.FlattensAll origin (.zero t) 0 keys rows) {i : Nat}
    {row : Row t} (hi : rows[i]? = some row) (r : Fin t.toMany.length) :
    (Contents.relationWindow row.record r).start.toNat =
        ((keys.take i).flatMap (s.targetIds t r)).length ∧
      (Contents.relationWindow row.record r).stop.toNat =
        ((keys.take (i + 1)).flatMap (s.targetIds t r)).length := by
  have hcolumn : ∀ n, columnOf ((relationEntries rows r).take n) =
      (keys.take n).flatMap (s.targetIds t r) := by
    intro n
    rw [List.flatMap_def, List.map_take, ← h.map_toMany r]
    simp [columnOf, relationEntries, List.flatMap_def, Function.comp_def]
  have hentry : (relationEntries rows r)[i]? =
      some (Contents.relationWindow row.record r, row.toMany[r]) := by
    simp [relationEntries, hi]
  have hbounds := (h.rowsTile.relations r).bounds_of_getElem? hentry
  rwa [Nat.zero_add, Nat.zero_add, hcolumn, hcolumn] at hbounds

theorem memberWindow_bounds (h : s.FlattensAll origin (.zero t) 0 keys rows) {i : Nat}
    {row : Row t} (hi : rows[i]? = some row) (m : Fin t.members.length) :
    (Contents.memberWindow row.record m).start.toNat =
        ((keys.take i).flatMap (s.memberValues t m)).length ∧
      (Contents.memberWindow row.record m).stop.toNat =
        ((keys.take (i + 1)).flatMap (s.memberValues t m)).length := by
  have hcolumn : ∀ n, columnOf ((memberEntries rows m).take n) =
      (keys.take n).flatMap (s.memberValues t m) := by
    intro n
    rw [List.flatMap_def, List.map_take, ← h.map_members m]
    simp [columnOf, memberEntries, List.flatMap_def, Function.comp_def]
  have hentry : (memberEntries rows m)[i]? =
      some (Contents.memberWindow row.record m, row.members[m]) := by
    simp [memberEntries, hi]
  have hbounds := (h.rowsTile.members m).bounds_of_getElem? hentry
  rwa [Nat.zero_add, Nat.zero_add, hcolumn, hcolumn] at hbounds

end FlattensAll

/-! ## Whole collections -/

/-- What a normal collection must be like to be written. -/
structure IsFlattenable (s : Store) (col : Collection) : Prop where
  /-- Each link, and each to-one relation that is set, leads to an object with an address. -/
  links : ∀ k ∈ col.storage.objects, ∀ k' ∈ s.linkedObjects col.type k, s.IsStorable k'
  waiting : ∀ k ∈ col.storage.objects, ∀ r, ∀ id ∈ s.waitingIds col.type r k,
    id.isUntracked = false
  toMany : ∀ r, (col.storage.objects.flatMap (s.targetIds col.type r)).length < columnLimit
  members : ∀ m, (col.storage.objects.flatMap (s.memberValues col.type m)).length < columnLimit

/-- The buffers hold the payloads, the addresses of the present targets and the elements of the members
of all objects, in the order of the objects. -/
structure IsExact (s : Store) (col : Collection) (contents : Contents col.type) : Prop where
  payloads : List.Forall₂
    (fun k record => s.payload col.type (some k) = .ok (Record.payload record))
    col.storage.objects contents.records
  toMany : ∀ r : Fin col.type.toMany.length,
    contents.toMany[r] = col.storage.objects.flatMap (s.targetIds col.type r)
  /-- The window of a record begins after the parts of all objects before and ends after its own. -/
  relationWindows : ∀ (r : Fin col.type.toMany.length) i record,
    contents.records[i]? = some record →
      (Contents.relationWindow record r).start.toNat =
          ((col.storage.objects.take i).flatMap (s.targetIds col.type r)).length ∧
        (Contents.relationWindow record r).stop.toNat =
          ((col.storage.objects.take (i + 1)).flatMap (s.targetIds col.type r)).length
  members : ∀ m : Fin col.type.members.length,
    contents.members[m] = col.storage.objects.flatMap (s.memberValues col.type m)
  memberWindows : ∀ (m : Fin col.type.members.length) i record,
    contents.records[i]? = some record →
      (Contents.memberWindow record m).start.toNat =
          ((col.storage.objects.take i).flatMap (s.memberValues col.type m)).length ∧
        (Contents.memberWindow record m).stop.toNat =
          ((col.storage.objects.take (i + 1)).flatMap (s.memberValues col.type m)).length
  toOne : ∀ (r : Fin col.type.toOne.length) i k, col.storage.objects[i]? = some k →
    contents.toOne[r][i]? = some (s.targetId col.origin r i k)
  singles : ∀ r : Fin col.type.toOne.length, contents.toOne[r].length = col.size

/-- The buffers are exactly those of the collection, and readers accept them, verified or not. -/
structure WritesExactly (s : Store) (col : Collection) (b : Buffers) : Prop where
  type : b.type = col.type.name
  subset : b.subset = false
  size : b.size = col.size
  contents : ∃ contents : Contents col.type, s.IsExact col contents ∧
    ∀ config, ∃ bodies, decodeOwned col.type b config = .ok (contents, bodies)
  accepted : ∀ id config s', ∃ c, (rebuild col.type b id config s').1 = .ok c

section Whole

variable {objects : Array ObjectKey} {keys : List ObjectKey} {rows : List (Row col.type)}

theorem FlattensAll.isFlattenable (hkeys : col.storage.objects = keys)
    (h : s.FlattensAll col.origin (.zero col.type) 0 keys rows) : s.IsFlattenable col := by
  have hzero : ∀ r : Fin col.type.toMany.length, (Extents.zero col.type).toMany[r] = 0 := by
    simp [Extents.zero]
  have hzero' : ∀ m : Fin col.type.members.length, (Extents.zero col.type).members[m] = 0 := by
    simp [Extents.zero]
  have hlimit : 0 < columnLimit := by decide
  have hfits := h.not_overlong (fun r => by rw [hzero r]; exact hlimit)
    (fun m => by rw [hzero' m]; exact hlimit)
  subst hkeys
  refine ⟨fun k hk k' hk' => h.isStorable hk hk', fun k hk r => h.waitingIds_tracked hk r, ?_, ?_⟩
  · intro r
    refine Nat.lt_of_not_le fun hlong => hfits (.inl ⟨r, ?_⟩)
    rwa [hzero r, Nat.zero_add]
  · intro m
    refine Nat.lt_of_not_le fun hlong => hfits (.inr ⟨m, ?_⟩)
    rwa [hzero' m, Nat.zero_add]

theorem FlattensAll.isExact (hkeys : col.storage.objects = keys) (hsize : col.size = keys.length)
    (h : s.FlattensAll col.origin (.zero col.type) 0 keys rows) :
    s.IsExact col (contentsOfRows rows) := by
  have hrecord : ∀ {i : Nat} {record : Record col.type},
      (contentsOfRows rows).records[i]? = some record →
        ∃ row, rows[i]? = some row ∧ row.record = record := by
    intro i record hi
    simpa [contentsOfRows] using hi
  subst hkeys
  constructor
  case payloads => exact List.forall₂_map_right_iff.2 h.forall₂_payload
  -- a column is what the rows have one after the other, and so are the targets of the objects
  case toMany =>
    intro r
    rw [List.flatMap_def, ← h.map_toMany r]
    simp [contentsOfRows, List.flatMap_def]
  case relationWindows =>
    intro r i record hi
    rcases hrecord hi with ⟨row, hrow, rfl⟩
    exact h.relationWindow_bounds hrow r
  case members =>
    intro m
    rw [List.flatMap_def, ← h.map_members m]
    simp [contentsOfRows, List.flatMap_def]
  case memberWindows =>
    intro m i record hi
    rcases hrecord hi with ⟨row, hrow, rfl⟩
    exact h.memberWindow_bounds hrow m
  case toOne =>
    intro r i k hk
    rcases h.getElem?_of_key hk with ⟨row, extents, body, hrow, hflattens⟩
    rw [Nat.zero_add] at hflattens
    rw [← hflattens.toOne_eq r]
    simp [contentsOfRows, hrow]
  case singles =>
    intro r
    rw [hsize, h.length_eq]
    simp [contentsOfRows]

theorem FlattensAll.writesExactly (hkeys : col.storage.objects = keys)
    (hsize : col.size = keys.length)
    (h : s.FlattensAll col.origin (.zero col.type) 0 keys rows) :
    s.WritesExactly col (buffersOfRows col.type rows) where
  type := rfl
  subset := rfl
  size := by
    rw [hsize, h.length_eq]
    simp [Buffers.size, buffersOfRows, RawBytes.encode]
  contents := ⟨contentsOfRows rows, h.isExact hkeys hsize,
    fun config => ⟨_, decodeOwned_buffersOfRows h.rowsTile config⟩⟩
  accepted id config s' := by
    have htype : (buffersOfRows col.type rows).expectType col.type = .ok () := if_pos rfl
    exact ⟨_, congrArg Prod.fst
      (rebuild_apply_owned htype rfl (decodeOwned_buffersOfRows h.rowsTile config))⟩

/-- A collection that is flattenable has rows. -/
theorem IsFlattenable.exists_rows (h : WellFormed s) (hcol : s.collections.get? c = some col)
    (hstorage : col.storage = .owned objects) (hflattenable : s.IsFlattenable col) :
    ∃ rows, s.FlattensAll col.origin (.zero col.type) 0 objects.toList rows := by
  have hkeys : col.storage.objects = objects.toList := by rw [hstorage, Storage.objects]
  -- the limit is given for addresses; columns are counted in links
  have hlengths : ∀ k ∈ objects.toList, ∀ r : Fin col.type.toMany.length,
      (s.targetIds col.type r k).length = s.relatedLength col.type r k := by
    intro k hk r
    rcases List.mem_iff_getElem?.1 hk with ⟨i, hi⟩
    rcases h.exists_body hcol hstorage hi with ⟨body, hlists, hbody⟩
    exact length_targetIds h hbody hlists r
  refine exists_flattensAll ?_ ?_ ?_
  · intro i k hk
    rcases h.exists_body hcol hstorage hk with ⟨body, hlists, hbody⟩
    have hmem : k ∈ col.storage.objects := hkeys ▸ List.mem_of_getElem? hk
    exact ⟨body, canFlatten_of_linkId h hbody hlists
      (fun k' hk' => isStorable_iff.1 (hflattenable.links k hmem k' hk'))
      (fun r => hflattenable.waiting k hmem r) _ _⟩
  · intro r
    have htotal := hflattenable.toMany r
    rw [hkeys, List.length_flatMap] at htotal
    rw [List.map_congr_left fun k hk => (hlengths k hk r).symm]
    simpa [Extents.zero] using htotal
  · intro m
    have htotal := hflattenable.members m
    rw [hkeys, List.length_flatMap] at htotal
    rw [List.map_congr_left fun k _ => (length_memberValues m k).symm]
    simpa [Extents.zero] using htotal

/-- A normal collection is written exactly if it is flattenable. Otherwise the error says that a link
leads nowhere, that a relation has an untracked address, or that a column is too long. What is written
is exactly the collection. -/
theorem flatten_exact (h : Reachable s) (hcol : s.collections.get? c = some col)
    (hnormal : col.isSubset = false) :
    ((∃ b, s.flatten c = .ok b) ↔ s.IsFlattenable col) ∧
      (∀ e, s.flatten c = .error e →
        RefusesFlat col.type.name (s.Overlong (.zero col.type) col.storage.objects) e) ∧
      ∀ b, s.flatten c = .ok b → s.WritesExactly col b := by
  obtain ⟨objects, hstorage⟩ := storage_of_normal hnormal
  have hkeys : col.storage.objects = objects.toList := by rw [hstorage, Storage.objects]
  have hsize : col.size = objects.toList.length := by
    rw [Collection.size, hstorage, Storage.size, Array.length_toList]
  -- flattening is the making of rows, and nothing else can fail
  have hflatten : s.flatten c = do
      return buffersOfRows col.type
        (← s.flattenObjects col.type col.origin (.zero col.type) 0 objects.toList) := by
    rw [flatten, collection_eq_ok_iff.2 hcol]
    change s.flattenCollection col = _
    unfold flattenCollection
    rw [hstorage]
  have hrows : ∀ b, s.flatten c = .ok b → ∃ rows,
      s.FlattensAll col.origin (.zero col.type) 0 objects.toList rows ∧
        b = buffersOfRows col.type rows := by
    intro b hb
    rw [hflatten] at hb
    rcases bind_eq_ok_iff.1 hb with ⟨rows, hrows, heq⟩
    exact ⟨rows, flattenObjects_eq_ok_iff.1 hrows, (Except.ok.inj heq).symm⟩
  refine ⟨⟨?_, ?_⟩, ?_, ?_⟩
  · rintro ⟨b, hb⟩
    rcases hrows b hb with ⟨rows, hall, -⟩
    exact hall.isFlattenable hkeys
  · intro hflattenable
    rcases hflattenable.exists_rows h.wellFormed hcol hstorage with ⟨rows, hall⟩
    refine ⟨_, hflatten.trans (bind_eq_ok_iff.2 ⟨rows, flattenObjects_eq_ok_iff.2 hall, rfl⟩)⟩
  · intro e herror
    rw [hflatten] at herror
    rcases bind_eq_error_iff.1 herror with hobjects | ⟨rows, -, hfalse⟩
    · rw [hkeys]
      refine flattenObjects_eq_error (c := c) h.wellFormed ?_ hobjects
      intro k hk
      rcases List.mem_iff_getElem?.1 hk with ⟨i, hi⟩
      rcases h.wellFormed.exists_body hcol hstorage hi with ⟨body, hlisted⟩
      exact ⟨i, body, hlisted⟩
    · cases hfalse
  · intro b hb
    rcases hrows b hb with ⟨rows, hall, rfl⟩
    exact hall.writesExactly hkeys hsize

end Whole

instance (col : Collection) : Decidable (s.IsFlattenable col) :=
  decidable_of_iff
    ((∀ k ∈ col.storage.objects, ∀ k' ∈ s.linkedObjects col.type k, s.IsStorable k') ∧
      (∀ k ∈ col.storage.objects, ∀ r, ∀ id ∈ s.waitingIds col.type r k,
        id.isUntracked = false) ∧
      (∀ r, (col.storage.objects.flatMap (s.targetIds col.type r)).length < columnLimit) ∧
      ∀ m, (col.storage.objects.flatMap (s.memberValues col.type m)).length < columnLimit)
    ⟨fun ⟨hlinks, hwaiting, hmany, hmembers⟩ => ⟨hlinks, hwaiting, hmany, hmembers⟩,
      fun h => ⟨h.links, h.waiting, h.toMany, h.members⟩⟩

/-- Two nodes whose windows overlap are written with each target under both of them. -/
theorem flatten_exact_overlappingStore :
    overlappingCollection.isSubset = false ∧ overlappingStore.IsFlattenable overlappingCollection ∧
      ∃ b, overlappingStore.flatten 0 = .ok b ∧
        overlappingStore.WritesExactly overlappingCollection b := by
  have hnormal : overlappingCollection.isSubset = false := by decide +kernel
  have hflattenable : overlappingStore.IsFlattenable overlappingCollection := by decide +kernel
  rcases flatten_exact reachable_overlappingStore (Option.some_get _).symm hnormal
    with ⟨hiff, -, hexact⟩
  rcases hiff.2 hflattenable with ⟨b, hb⟩
  exact ⟨hnormal, hflattenable, b, hb, hexact b hb⟩

end Store
end EventModel
