import EventModel.Proofs.Results
import EventModel.Proofs.Store.Operations

/-!
# What flattening writes

The flat form of an object is determined by its body, by the addresses of the objects that its links
lead to and by the lengths of the columns so far. `Flattens` names the parts; the lemmas below take a
successful run of `flattenObject` apart into them and put one together.
-/

namespace EventModel.Store

variable {s s' : Store} {t : DataType}

/-! ## Addresses -/

theorem linkId_of_owned {k : ObjectKey} {o : Object} {c : CollectionKey} {i : Nat}
    (ho : s.objects.get? k = some o) (htracking : o.tracking = .owned c i) :
    s.linkId k = .ok (s.addressOf o) := by
  have hexists : s.existsObject k = true := by simp [existsObject, ho, htracking]
  have havailable : s.available (some k) = .ok o := by
    simp [available, ho, Object.isReleased, htracking]
  simp [linkId, hexists, idOf, havailable, Except.map]

theorem addressOf_of_owned {o : Object} {c : CollectionKey} {i : Nat} {col : Collection}
    (htracking : o.tracking = .owned c i) (hcol : s.collections.get? c = some col) :
    s.addressOf o = .ofPosition i col.id := by
  simp [addressOf, htracking, hcol]

/-- An object that a collection owns has the address of its position. -/
theorem idOf_of_owned {k : ObjectKey} {o : Object} {c : CollectionKey} {i : Nat} {col : Collection}
    (ho : s.objects.get? k = some o) (htracking : o.tracking = .owned c i)
    (hcol : s.collections.get? c = some col) : s.idOf (some k) = .ok (.ofPosition i col.id) := by
  rw [← addressOf_of_owned htracking hcol]
  simp [idOf, available, ho, Object.isReleased, htracking, Except.map]

theorem idOf_eq_ok {k : ObjectKey} {id : ObjectId} (h : s.idOf (some k) = .ok id) :
    ∃ o, s.objects.get? k = some o ∧ o.isReleased = false ∧ s.addressOf o = id := by
  rcases havailable : s.available (some k) with e | o
  · rw [idOf, havailable] at h
    cases h
  · rw [idOf, havailable] at h
    cases h
    obtain ⟨k', hk', ho, hreleased⟩ := available_eq_ok havailable
    cases hk'
    exact ⟨o, ho, hreleased, rfl⟩

theorem linkId_eq_ok {k : ObjectKey} {id : ObjectId} (h : s.linkId k = .ok id) :
    s.idOf (some k) = .ok id := by
  unfold linkId at h
  split at h
  · exact h
  · cases h

/-- Only an object that a collection owns has an address. -/
theorem owned_of_addressOf {o : Object} (h : (s.addressOf o).isUntracked = false) :
    ∃ c i col, o.tracking = .owned c i ∧ s.collections.get? c = some col := by
  unfold addressOf at h
  split at h
  · rename_i c i htracking
    split at h
    · rename_i col hcol
      exact ⟨c, i, col, htracking, hcol⟩
    · cases h
  · cases h

/-- A link that can be stored leads to an object that a collection owns. -/
theorem owned_of_linkId {k : ObjectKey} {id : ObjectId} (h : s.linkId k = .ok id)
    (htracked : id.isUntracked = false) :
    ∃ o c i col, s.objects.get? k = some o ∧ o.tracking = .owned c i ∧
      s.collections.get? c = some col ∧ id = .ofPosition i col.id := by
  obtain ⟨o, ho, -, rfl⟩ := idOf_eq_ok (linkId_eq_ok h)
  obtain ⟨c, i, col, htracking, hcol⟩ := owned_of_addressOf htracked
  exact ⟨o, c, i, col, ho, htracking, hcol, addressOf_of_owned htracking hcol⟩

/-! ## Rows -/

/-- The address to store for a to-one relation of an object. -/
def singleId (s : Store) (origin : Option (Origin t)) (position : Nat) (body : Body t)
    (r : Fin t.toOne.length) : Except Error ObjectId := do
  match body.toOne[r] with
  | none => return (waitingId origin r position).getD .untracked
  | some target =>
    let id ← s.linkId target
    if id.isUntracked then throw (.unpersistableReference t.name position (t.toOne.get r).name)
    return id

theorem relationWindow_append (payload : t.payload.Value) (xs : Vector Window t.toMany.length)
    (ys : Vector Window t.members.length) (r : Fin t.toMany.length) :
    Contents.relationWindow (t := t) (payload, xs ++ ys) r = xs[r] := by
  change (xs ++ ys)[r.val] = xs[r.val]
  rw [Vector.getElem_append, dif_pos r.isLt]

theorem memberWindow_append (payload : t.payload.Value) (xs : Vector Window t.toMany.length)
    (ys : Vector Window t.members.length) (m : Fin t.members.length) :
    Contents.memberWindow (t := t) (payload, xs ++ ys) m = ys[m] := by
  change (xs ++ ys)[t.toMany.length + m.val] = ys[m.val]
  rw [Vector.getElem_append, dif_neg (by omega)]
  simp

/-- A record is its payload with its windows. -/
theorem record_eq (record : Record t) :
    record = (record.payload, (Vector.ofFn (Contents.relationWindow record)) ++
      Vector.ofFn (Contents.memberWindow record)) := by
  obtain ⟨payload, windows⟩ := record
  refine Prod.ext rfl ?_
  apply Vector.ext
  intro i hi
  rw [Vector.getElem_append]
  split
  · rw [Vector.getElem_ofFn]
    rfl
  · rename_i hge
    have hsum : t.toMany.length + (i - t.toMany.length) = i := by omega
    rw [Vector.getElem_ofFn]
    simp only [Contents.memberWindow, hsum]
    rfl

/-- The parts of the flat form of one object. -/
structure Flattens (s : Store) (origin : Option (Origin t)) (extents : Extents t) (position : Nat)
    (k : ObjectKey) (body : Body t) (row : Row t) : Prop where
  read : s.body t k = .ok body
  payload : Record.payload row.record = body.payload
  members : row.members = body.members
  toMany : ∀ r : Fin t.toMany.length, s.relatedIds k body r = .ok row.toMany[r]
  tracked : ∀ r : Fin t.toMany.length, ∀ id ∈ row.toMany[r], id.isUntracked = false
  relationWindows : ∀ r : Fin t.toMany.length,
    Window.ofExtent extents.toMany[r] row.toMany[r].length =
      .ok (Contents.relationWindow row.record r)
  memberWindows : ∀ m : Fin t.members.length,
    Window.ofExtent extents.members[m] body.members[m].length =
      .ok (Contents.memberWindow row.record m)
  toOne : ∀ r : Fin t.toOne.length, s.singleId origin position body r = .ok row.toOne[r]

variable {origin : Option (Origin t)} {extents : Extents t} {position : Nat} {k : ObjectKey}

theorem flattens_of_flattenObject {row : Row t}
    (h : s.flattenObject t origin extents position k = .ok row) :
    ∃ body, s.Flattens origin extents position k body row := by
  obtain ⟨body, hbody, h⟩ := bind_eq_ok_iff.1 h
  obtain ⟨pairs, hpairs, h⟩ := bind_eq_ok_iff.1 h
  obtain ⟨windows, hwindows, h⟩ := bind_eq_ok_iff.1 h
  obtain ⟨ids, hids, h⟩ := bind_eq_ok_iff.1 h
  cases h
  -- an untracked address is refused before its window is made
  have hpair : ∀ r : Fin t.toMany.length, s.relatedIds k body r = .ok pairs[r].1 ∧
      (∀ id ∈ pairs[r].1, id.isUntracked = false) ∧
      Window.ofExtent extents.toMany[r] pairs[r].1.length = .ok pairs[r].2 := by
    intro r
    obtain ⟨found, hfound, h⟩ := bind_eq_ok_iff.1 (tryOfFn_apply hpairs r)
    rcases hany : found.any ObjectId.isUntracked
    · rw [hany] at h
      obtain ⟨window, hwindow, h⟩ := bind_eq_ok_iff.1 h
      rw [← Except.ok.inj h]
      refine ⟨hfound, ?_, hwindow⟩
      simpa using hany
    · rw [hany] at h
      cases h
  refine ⟨body, hbody, rfl, rfl, ?toMany, ?tracked, ?relationWindows, ?memberWindows,
    tryOfFn_apply hids⟩
  case toMany =>
    intro r
    simpa using (hpair r).1
  case tracked =>
    intro r
    simpa using (hpair r).2.1
  case relationWindows =>
    intro r
    rw [relationWindow_append]
    simpa using (hpair r).2.2
  case memberWindows =>
    intro m
    rw [memberWindow_append]
    exact tryOfFn_apply hwindows m

theorem flattenObject_of_flattens {body : Body t} {row : Row t}
    (h : s.Flattens origin extents position k body row) :
    s.flattenObject t origin extents position k = .ok row := by
  refine bind_eq_ok_iff.2 ⟨body, h.read, bind_eq_ok_iff.2
    ⟨Vector.ofFn fun r => (row.toMany[r], Contents.relationWindow row.record r), ?_,
      bind_eq_ok_iff.2 ⟨Vector.ofFn fun m => Contents.memberWindow row.record m, ?_,
        bind_eq_ok_iff.2 ⟨row.toOne, ?_, ?_⟩⟩⟩⟩
  · refine tryOfFn_eq_ok_iff.2 fun r => bind_eq_ok_iff.2 ⟨row.toMany[r], h.toMany r, ?_⟩
    have hany : row.toMany[r].any ObjectId.isUntracked = false := by
      simpa using h.tracked r
    rw [hany]
    refine bind_eq_ok_iff.2 ⟨Contents.relationWindow row.record r, h.relationWindows r, ?_⟩
    simp [pure, Except.pure]
  · refine tryOfFn_eq_ok_iff.2 fun m => ?_
    rw [h.memberWindows m]
    simp
  · exact tryOfFn_eq_ok_iff.2 h.toOne
  · have hrecord := record_eq row.record
    rw [h.payload] at hrecord
    refine congrArg Except.ok ?_
    rw [← h.members]
    obtain ⟨record, toMany, members, toOne⟩ := row
    dsimp only at hrecord ⊢
    congr 1
    · refine Eq.trans ?_ hrecord.symm
      congr 2
      apply Vector.ext
      intro i hi
      simp
    · apply Vector.ext
      intro i hi
      simp

/-! ## Links -/

/-- The links of an object that was resolved are stored one by one. -/
theorem relatedIds_of_links {body : Body t} {r : Fin t.toMany.length} {ks : List ObjectKey}
    (h : s.links k body r = .ok ks) : s.relatedIds k body r = ks.mapM s.linkId := by
  unfold links at h
  unfold relatedIds
  rcases hmany : body.toMany with lists | windows
  · simp only [hmany] at h ⊢
    rw [Except.ok.inj h]
  · simp only [hmany] at h ⊢
    obtain ⟨⟨id, columns⟩, horigin, h⟩ := bind_eq_ok_iff.1 h
    rw [horigin]
    rcases columns with ⟨many, one⟩ | many
    · cases h
    · change (windows[r].slice many[r] >>= fun ks => ks.mapM s.linkId) = _
      rw [show windows[r].slice many[r] = .ok ks from h]
      rfl

/-- Addresses of a to-many relation come from its links or, before resolution, from the columns. -/
theorem relatedIds_cases {body : Body t} {r : Fin t.toMany.length} {ids : List ObjectId}
    (h : s.relatedIds k body r = .ok ids) :
    (∃ ks, s.links k body r = .ok ks ∧ ks.mapM s.linkId = .ok ids) ∨
      ∃ windows id many one, body.toMany = .windows windows ∧
        s.originOf t k = .ok ⟨id, .stored many one⟩ ∧ windows[r].slice many[r] = .ok ids := by
  unfold relatedIds at h
  rcases hmany : body.toMany with lists | windows
  · simp only [hmany] at h
    exact .inl ⟨lists[r], by simp [links, hmany], h⟩
  · simp only [hmany] at h
    obtain ⟨⟨id, columns⟩, horigin, h⟩ := bind_eq_ok_iff.1 h
    rcases columns with ⟨many, one⟩ | many
    · exact .inr ⟨windows, id, many, one, rfl, horigin, h⟩
    · obtain ⟨ks, hks, h⟩ := bind_eq_ok_iff.1 h
      refine .inl ⟨ks, ?_, h⟩
      simp only [links, hmany]
      exact bind_eq_ok_iff.2 ⟨_, horigin, hks⟩

theorem mem_linkedObjects_iff {k' : ObjectKey} {body : Body t} (hbody : s.body t k = .ok body) :
    k' ∈ s.linkedObjects t k ↔
      (∃ r ks, s.links k body r = .ok ks ∧ k' ∈ ks) ∨
        ∃ r : Fin t.toOne.length, body.toOne[r] = some k' := by
  simp only [linkedObjects, hbody, List.mem_append, List.mem_flatMap, List.mem_finRange, true_and,
    List.mem_filterMap, id_eq, exists_eq_right, Vector.mem_toList_iff, Vector.mem_iff_getElem]
  refine or_congr ?_ ?_
  · refine exists_congr fun r => ?_
    rcases s.links k body r with e | ks
    · simp
    · simp
  · constructor
    · rintro ⟨i, hi, heq⟩
      exact ⟨⟨i, hi⟩, heq⟩
    · rintro ⟨r, heq⟩
      exact ⟨r.val, r.isLt, heq⟩

theorem singleId_eq_ok_of_some {body : Body t} {r : Fin t.toOne.length} {k' : ObjectKey}
    {id : ObjectId} (hsome : body.toOne[r] = some k') :
    s.singleId origin position body r = .ok id ↔ s.linkId k' = .ok id ∧ id.isUntracked = false := by
  simp only [singleId, hsome]
  rw [bind_eq_ok_iff]
  constructor
  · rintro ⟨found, hfound, h⟩
    rcases huntracked : found.isUntracked
    · simp only [huntracked, Bool.false_eq_true, ↓reduceIte] at h
      cases h
      exact ⟨hfound, huntracked⟩
    · simp only [huntracked, ↓reduceIte] at h
      cases h
  · rintro ⟨hlink, htracked⟩
    refine ⟨id, hlink, ?_⟩
    simp only [htracked, Bool.false_eq_true, ↓reduceIte]
    rfl

/-- Every link of an object that can be flattened leads to an object with an address. -/
theorem Flattens.linkId {body : Body t} {row : Row t}
    (h : s.Flattens origin extents position k body row) {k' : ObjectKey}
    (hk' : k' ∈ s.linkedObjects t k) :
    ∃ id, s.linkId k' = .ok id ∧ id.isUntracked = false := by
  rcases (mem_linkedObjects_iff h.read).1 hk' with ⟨r, ks, hks, hmem⟩ | ⟨r, hsome⟩
  · have hids := h.toMany r
    rw [relatedIds_of_links hks, mapM_eq_ok_iff] at hids
    obtain ⟨id, hid, hlink⟩ := exists_right_of_forall₂ hids hmem
    exact ⟨id, hlink, h.tracked r id hid⟩
  · exact ⟨_, (singleId_eq_ok_of_some hsome).1 (h.toOne r)⟩

/-- The flat form depends on the body, on the columns and on the addresses of the links. -/
theorem Flattens.congr {body : Body t} {row : Row t}
    (h : s.Flattens origin extents position k body row) (hread : s'.body t k = s.body t k)
    (horigin : s'.originOf t k = s.originOf t k)
    (hlink : ∀ k' ∈ s.linkedObjects t k, s'.linkId k' = s.linkId k') :
    s'.Flattens origin extents position k body row where
  read := by rw [hread, h.read]
  payload := h.payload
  members := h.members
  toMany r := by
    rcases relatedIds_cases (h.toMany r) with ⟨ks, hks, hids⟩ | ⟨windows, id, many, one, hrest⟩
    · have hks' : s'.links k body r = .ok ks := by
        rw [← hks]
        unfold links
        rw [horigin]
      rw [relatedIds_of_links hks', ← hids]
      refine mapM_congr fun k' hk' => hlink k' ?_
      exact (mem_linkedObjects_iff h.read).2 (.inl ⟨r, ks, hks, hk'⟩)
    · obtain ⟨hmany, hsome, hslice⟩ := hrest
      simp only [relatedIds, hmany]
      rw [horigin]
      exact bind_eq_ok_iff.2 ⟨_, hsome, hslice⟩
  tracked := h.tracked
  relationWindows := h.relationWindows
  memberWindows := h.memberWindows
  toOne r := by
    have hids := h.toOne r
    rcases hplace : body.toOne[r] with _ | k'
    · simp only [singleId, hplace] at hids ⊢
      exact hids
    · rw [singleId_eq_ok_of_some hplace] at hids ⊢
      rw [hlink k' ((mem_linkedObjects_iff h.read).2 (.inr ⟨r, hplace⟩))]
      exact hids

end EventModel.Store
