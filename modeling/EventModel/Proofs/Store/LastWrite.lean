import EventModel.Proofs.Store.Counting
import EventModel.Proofs.Store.Reading
import EventModel.Proofs.Store.Singles

/-!
# The last assignment of a to-one relation

What was set last for a to-one relation is what is read and written, until something else is set or
the object is released (`single_of_setSingle`). A relation whose stored address still waits is the
exception: resolution puts what it finds in the place of what was set, and a relation that was
cleared is written with its stored address.
-/

namespace EventModel.Store

variable {s s' : Store} {k : ObjectKey} {r : Nat}

/-! ## Operations between two assignments -/

/-- One operation that does not set the relation of the object to another place. -/
structure LeavesPlace (k : ObjectKey) (r : Nat) (place : Option ObjectKey) (s s' : Store) : Prop where
  step : Step s s'
  same : ∀ {t : DataType} (handle : MutableHandle t) (target : Reference),
    s.target handle.toReference = some k → setSingle handle r target s = (.ok (), s') →
      s.target target = place

variable {t : DataType} {place : Option ObjectKey}

theorem slot?_setSingle {handle : MutableHandle t} {target : Reference}
    (hk : s.target handle.toReference = some k)
    (hset : setSingle handle r target s = (.ok (), s')) :
    s'.slot? k r = some (t, s.target target) := by
  rcases setSingle_cases handle r target s
    with ⟨e, herror⟩ | ⟨r', k', body, rfl, hk', hbody, -, hrun⟩
  · cases hset.symm.trans herror
  · cases hk.symm.trans hk'
    cases hset.symm.trans hrun
    exact slot?_withPlace hbody r' _

/-- An operation after which the relation has the place did not set it to another one. -/
theorem LeavesPlace.of_slot (step : Step s s') (hslot : s'.slot? k r = some (t, place)) :
    LeavesPlace k r place s s' where
  step := step
  same handle target hk hset := by
    cases hslot.symm.trans (slot?_setSingle hk hset)
    rfl

/-- Nothing waits again for an object that was made. -/
theorem Step.waiting?_eq_none (h : Reachable s) (step : Step s s')
    (hmade : (s.tracking? k).isSome = true) (hnone : s.waiting? k r = none) :
    s'.waiting? k r = none := by
  have hstays : ∀ {kind}, kind ≠ .link → Changes kind s s' → s'.waiting? k r = none := by
    intro kind hkind hchanges
    cases Changes.treatsSlot h.wellFormed h.singlesFit hmade hkind hchanges with
    | isKept hkept => exact hkept.waiting.trans hnone
    | isFilled _ hfilled => exact hfilled
  rcases step.gain_or_loss h.wellFormed with ⟨t, handle, relation, target, rfl⟩ | hgain | hloss
  · rcases setSingle_cases handle relation target s
      with ⟨e, herror⟩ | ⟨r', k', body, -, -, -, -, hrun⟩
    · rwa [herror]
    · rw [hrun]
      exact (waiting?_withPlace k' k body r' _ r).trans hnone
  · exact hstays (by simp) hgain
  · exact hstays (by simp) hloss

/-- Until another place is set, a relation with a place is left as it is or filled by resolution. -/
theorem LeavesPlace.treatsSlot (h : Reachable s) (hslot : s.slot? k r = some (t, place))
    (leaves : LeavesPlace k r place s s') : TreatsSlot k r s s' := by
  have hmade : (s.tracking? k).isSome = true := isSome_tracking?_of_slot? hslot
  rcases leaves.step.gain_or_loss h.wellFormed
    with ⟨t, handle, relation, target, rfl⟩ | hgain | hloss
  · rcases setSingle_cases handle relation target s
      with ⟨e, herror⟩ | ⟨r', k', body, hr, hk, hbody, -, hrun⟩
    · rw [herror]
      exact .isKept .refl
    · have hsame := leaves.same handle target
      rw [hrun] at hsame ⊢
      by_cases hset : k' = k ∧ r'.val = r
      · rcases hset with ⟨rfl, rfl⟩
        cases hr
        rcases slot?_eq_some_iff.1 hslot with ⟨tracking, body', -, ho, -⟩
        rcases body_eq_ok_iff.1 hbody with ⟨tracking', ho', -⟩
        cases ho.symm.trans ho'
        refine .isKept ⟨?_, waiting?_withPlace k' k' _ r' _ r'⟩
        rw [hslot, ← hsame hk hrun]
        exact slot?_withPlace hbody r' _
      · exact .isKept (keepsSlot_withPlace hbody fun hk' hr' => hset ⟨hk', hr'⟩)
  · exact Changes.treatsSlot h.wellFormed h.singlesFit hmade (by simp) hgain
  · exact Changes.treatsSlot h.wellFormed h.singlesFit hmade (by simp) hloss

theorem LeavesPlace.reachable (h : Reachable s)
    (run : Relation.ReflTransGen (LeavesPlace k r place) s s') : Reachable s' := by
  induction run with
  | refl => exact h
  | tail _ leaves ih => exact ih.step leaves.step

/-- What one operation leaves as it is or fills, a whole run does. -/
theorem LeavesPlace.treatsSlot_of_run (h : Reachable s) (hslot : s.slot? k r = some (t, place))
    (run : Relation.ReflTransGen (LeavesPlace k r place) s s') :
    (s'.tracking? k).isSome = true ∧ TreatsSlot k r s s' := by
  -- on the run: once filled, a relation stays as resolution left it
  induction run with
  | refl => exact ⟨isSome_tracking?_of_slot? hslot, .isKept .refl⟩
  | @tail mid s' earlier leaves ih =>
    rcases ih with ⟨hmade, htreats⟩
    have hmid := LeavesPlace.reachable h earlier
    rcases leaves.step.ages hmid.wellFormed with ⟨kind, hages⟩
    refine ⟨(hages k).isSome hmade, ?_⟩
    cases htreats with
    | isKept hkept =>
      have hslot' : mid.slot? k r = some (t, place) := hkept.slot.trans hslot
      exact TreatsSlot.trans (.isKept hkept) (leaves.treatsSlot hmid hslot')
    | isFilled hwaits hfilled =>
      exact .isFilled hwaits (leaves.step.waiting?_eq_none hmid hmade hfilled)

/-! ## What is read and written -/

theorem single_of_slot? {target : ObjectKey} (hslot : s.slot? target r = some (t, place))
    (hthere : s.isAvailable (some target) = true) :
    s.single t (some target) r = .ok (place.map s.placeOf) := by
  rcases slot?_eq_some_iff.1 hslot with ⟨tracking, body, hr, ho, rfl⟩
  have hbody : s.body t target = .ok body := by
    refine body_eq_ok_iff.2 ⟨tracking, ho, ?_⟩
    rintro rfl
    simp [isAvailable, ho, Object.isReleased] at hthere
  exact single_eq_ok hbody ⟨r, hr⟩

/-- The address that is written for a to-one relation: that of an object which a collection owns,
or, if nothing is set, the one that still waits for resolution. -/
def IsPlaceId (s : Store) (k : ObjectKey) (r : Nat) (place : Option ObjectKey) (id : ObjectId) :
    Prop :=
  match place with
  | some target => s.idOf (some target) = .ok id ∧ id.isUntracked = false
  | none => id = (s.waiting? k r).getD .untracked

theorem isPlaceId_of_singleId {c : CollectionKey} {i : Nat} {number : CollectionId}
    {storage : Storage} {origin : Option (Origin t)} {body : Body t} {address : ObjectId}
    (hstands : s.Stands c t number storage origin) (htracking : s.tracking? k = some (.owned c i))
    {r : Fin t.toOne.length} (hid : s.singleId origin i body r = .ok address) :
    s.IsPlaceId k r body.toOne[r] address := by
  rcases hplace : body.toOne[r] with _ | target
  · rcases hstands with ⟨config, generation, prepared, hcol⟩
    have hwaits : s.waiting? k r = waitingId origin r i := by
      rw [waiting?_of_owned htracking, hcol, Option.bind_some, Collection.waitingAt,
        dif_pos r.isLt]
    simp only [singleId, hplace] at hid
    rw [IsPlaceId, hwaits]
    exact (Except.ok.inj hid).symm
  · rcases (singleId_eq_ok_of_some hplace).1 hid with ⟨hlink, htracked⟩
    exact ⟨linkId_eq_ok hlink, htracked⟩

/-- The buffers of a collection hold at the position of each object what belongs there. -/
theorem exists_id_of_flatten (h : WellFormed s) (hslot : s.slot? k r = some (t, place))
    {c : CollectionKey} {i : Nat} {b : Buffers} (hlists : s.ListsAt c i k)
    (hflat : s.flatten c = .ok b) :
    ∃ ids id, b.relationIds (t.toMany.length + r) = .ok ids ∧ ids[i]? = some id ∧
      s.IsPlaceId k r place id := by
  rcases slot?_eq_some_iff.1 hslot with ⟨tracking, body, hr, ho, rfl⟩
  have htracking := h.listsAt_iff.1 hlists
  rcases hlists with ⟨col, objects, hcol, hstorage, hi⟩
  rcases hasFlat_of_flatten hflat with ⟨col', flat, hcol', hhas, rfl⟩
  cases hcol.symm.trans hcol'
  have htype : t = col.type := by
    rcases h.listed c col objects i k hcol hstorage hi with ⟨o', ho', htype, -⟩
    cases ho.symm.trans ho'
    exact htype
  subst htype
  cases hhas with
  | subset hstands _ =>
    rcases hstands.collection with ⟨col', hcol', -, -, hsubset⟩
    cases hcol.symm.trans hcol'
    cases hstorage.symm.trans hsubset
  | @owned keys origin rows hstands hrows =>
    have hkey : keys[i]? = some k := by
      rcases hstands.collection with ⟨col', hcol', -, -, howned⟩
      cases hcol.symm.trans hcol'
      cases hstorage.symm.trans howned
      rwa [List.getElem?_toArray] at hi
    rcases hrows.getElem?_of_key hkey with ⟨row, extents, body', hrow, hflattens⟩
    rw [Nat.zero_add] at hflattens
    rcases body_eq_ok_iff.1 hflattens.read with ⟨tracking', ho', -⟩
    cases ho.symm.trans ho'
    have hread := Contents.isRead_of_decode (decode_buffersOfRows rows)
    refine ⟨_, row.toOne[r], hread.toOne ⟨r, hr⟩, ?_, ?_⟩
    · simp [contentsOfRows, hrow]
    · exact isPlaceId_of_singleId hstands htracking (hflattens.toOne ⟨r, hr⟩)

/-! ## Last write wins -/

variable {s₁ s₂ : Store}

/-- What was set last for a to-one relation is what is read and written, until another place is set
or the object is released. A relation that waited when it was set must still wait: resolution puts
what it finds in its place. An empty relation that waits is written as it was read. -/
theorem single_of_setSingle {handle : MutableHandle t} {relation : Nat} {target : Reference}
    (h : Reachable s) (hk : s.target handle.toReference = some k)
    (hset : setSingle handle relation target s = (.ok (), s₁))
    (run : Relation.ReflTransGen (LeavesPlace k relation (s.target target)) s₁ s₂)
    (hthere : s₂.isAvailable (some k) = true)
    (hwaits : s₁.waiting? k relation = none ∨ (s₂.waiting? k relation).isSome = true) :
    s₂.single t (some k) relation = .ok ((s.target target).map s₂.placeOf) ∧
      ∀ c i b, s₂.ListsAt c i k → s₂.flatten c = .ok b →
        ∃ ids id, b.relationIds (t.toMany.length + relation) = .ok ids ∧ ids[i]? = some id ∧
          s₂.IsPlaceId k relation (s.target target) id := by
  have hreachable : Reachable s₁ := by
    have hstep : Step s (setSingle handle relation target s).2 := .setSingle handle relation target
    rw [hset] at hstep
    exact h.step hstep
  have hslot := slot?_setSingle hk hset
  have hslot₂ : s₂.slot? k relation = some (t, s.target target) := by
    cases (LeavesPlace.treatsSlot_of_run hreachable hslot run).2 with
    | isKept hkept => exact hkept.slot.trans hslot
    | isFilled hwaited hfilled =>
      rcases hwaits with hnone | hsome
      · rw [hnone] at hwaited
        cases hwaited
      · rw [hfilled] at hsome
        cases hsome
  have hwell := (LeavesPlace.reachable hreachable run).wellFormed
  refine ⟨single_of_slot? hslot₂ hthere, ?_⟩
  intro c i b hlists hflat
  exact exists_id_of_flatten hwell hslot₂ hlists hflat

/-- Two objects of which the first leads to the second. -/
def chainBuffers : Buffers where
  type := "Link"
  subset := false
  records := .encode linkType.record [((1 : UInt8), #v[]), ((2 : UInt8), #v[])]
  relations := [.encode .objectId [⟨1, ⟨7⟩⟩, .untracked]]
  members := []

/-- The chain before it is resolved, with handles to its two objects and an empty reference. -/
def chainStore : Store :=
  let rebuilt := (rebuild linkType chainBuffers ⟨7⟩ {} .empty).2
  let first := (getMutable linkType 0 0 rebuilt).2
  let second := (getMutable linkType 0 1 first).2
  (refer none second).2

/-- Finds the chain. -/
def chainResolver : Resolver := fun number =>
  if number = ⟨7⟩ then some 0 else none

/-- The chain after it was resolved. -/
def resolvedChain : Store :=
  (setReferences chainResolver 0 chainStore).2

/-- The store in which the first object of a chain leads to the target of a reference. -/
def withNext (s : Store) (target : Reference) : Store :=
  (setSingle (t := linkType) ⟨⟨⟨0⟩⟩⟩ 0 target s).2

theorem reachable_resolvedChain : Reachable resolvedChain := by
  have hrebuilt := Reachable.empty.step (.rebuild linkType chainBuffers ⟨7⟩ {})
  have hhandles := (hrebuilt.step (.getMutable linkType 0 0)).step (.getMutable linkType 0 1)
  exact (hhandles.step .emptyReference).step (.setReferences chainResolver 0)

/-- The first object of a resolved chain is set to lead to itself, and then the chain gets another
number. -/
def renumberedChain : Store :=
  (setCollectionId 0 ⟨9⟩ (resolvedChain.withNext ⟨0⟩)).2

theorem single_of_setSingle_renumberedChain :
    renumberedChain.single linkType (some 0) 0 = .ok (some (some 0)) ∧
      (∀ b, renumberedChain.flatten 0 = .ok b → ∃ ids id, b.relationIds 0 = .ok ids ∧
        ids[0]? = some id ∧ renumberedChain.IsPlaceId 0 0 (some 0) id) ∧
      (renumberedChain.flatten 0).bind (·.relationIds 0) = .ok [⟨0, ⟨9⟩⟩, .untracked] := by
  have htarget : resolvedChain.target ⟨0⟩ = some 0 := by decide +kernel
  have hok : (setSingle (t := linkType) ⟨⟨⟨0⟩⟩⟩ 0 ⟨0⟩ resolvedChain).1 = .ok () := by decide +kernel
  have hset : setSingle (t := linkType) ⟨⟨⟨0⟩⟩⟩ 0 ⟨0⟩ resolvedChain =
      (.ok (), resolvedChain.withNext ⟨0⟩) := by
    rw [withNext, ← hok, Prod.eta]
  have hstep : Step (resolvedChain.withNext ⟨0⟩) renumberedChain :=
    .setCollectionId 0 ⟨9⟩ (by decide +kernel)
  have hslot : renumberedChain.slot? 0 0 = some (linkType, resolvedChain.target ⟨0⟩) := by
    decide +kernel
  have hlists : renumberedChain.ListsAt 0 0 0 := by
    have hset' : Step resolvedChain (resolvedChain.withNext ⟨0⟩) := .setSingle ⟨⟨⟨0⟩⟩⟩ 0 ⟨0⟩
    have hreachable := (reachable_resolvedChain.step hset').step hstep
    exact hreachable.wellFormed.listsAt_iff.2 (by decide +kernel)
  have hlast := single_of_setSingle reachable_resolvedChain htarget hset
    (.single (.of_slot hstep hslot)) (by decide +kernel) (.inl (by decide +kernel))
  rw [htarget] at hlast
  have hplace : renumberedChain.placeOf 0 = some 0 := by decide +kernel
  refine ⟨?_, fun b => hlast.2 0 0 b hlists, by decide +kernel⟩
  rw [hlast.1, Option.map_some, hplace]

/-- In a chain that still waits, what is set for the first object is overwritten by resolution, and
what is cleared is written as if it were still set. -/
theorem overwritten_chainStore :
    (chainStore.withNext ⟨0⟩).single linkType (some 0) 0 = .ok (some (some 0)) ∧
      (setReferences chainResolver 0 (chainStore.withNext ⟨0⟩)).1 = .ok () ∧
      (setReferences chainResolver 0 (chainStore.withNext ⟨0⟩)).2.single linkType (some 0) 0 =
        .ok (some (some 1)) ∧
      (chainStore.withNext ⟨2⟩).single linkType (some 0) 0 = .ok none ∧
      ((chainStore.withNext ⟨2⟩).flatten 0).bind (·.relationIds 0) =
        .ok [⟨1, ⟨7⟩⟩, .untracked] := by
  decide +kernel

end EventModel.Store
