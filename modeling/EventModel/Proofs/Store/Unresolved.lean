import EventModel.Proofs.Store.Filled
import EventModel.Proofs.Store.LastWrite
import EventModel.Proofs.Store.Waiting
import EventModel.Proofs.Store.WrittenBack

/-!
# Relations before resolution

As long as a rebuilt collection waits, no to-many relation of its objects can be read: each of them
fails with the number that the collection was rebuilt with. The stored address of a to-one relation
is kept with the collection and not with the object, so the relation reads as one that was never set
(`relations_of_isWaiting`).
-/

namespace EventModel.Store

variable {s s₀ s₁ : Store} {t : DataType} {c : CollectionKey} {k : ObjectKey} {i : Nat}
  {number : CollectionId} {b : Buffers} {config : Config}

/-! ## Rebuilt objects -/

/-- The object at a position of a collection has the body that was read for it, and the collection
keeps the columns. -/
structure RebuiltAt (s : Store) (c : CollectionKey) (i : Nat) (k : ObjectKey)
    (number : CollectionId) (contents : Contents t) (row : Row t) : Prop where
  stands : ∃ storage,
    s.Stands c t number storage (some ⟨number, .stored contents.toMany contents.toOne⟩)
  isRow : contents.rows[i]? = some row
  object : s.objects.get? k = some ⟨t, .owned c i, row.body⟩

/-- Each object that a collection lists after it was rebuilt has a row in the buffers. -/
theorem exists_rebuiltAt (hrebuild : rebuild t b number config s₀ = (.ok c, s₁))
    (hlists : s₁.ListsAt c i k) :
    ∃ contents row, contents.IsRead b ∧ RebuiltAt (t := t) s₁ c i k number contents row := by
  rcases hlists with ⟨col, objects, hcol, hstorage, hi⟩
  rcases hsubset : b.subset
  · rcases exists_owns_of_rebuild hsubset hrebuild with ⟨contents, keys, hread, hstands, howns⟩
    rcases hstands.collection with ⟨col', hcol', -, -, hkeys⟩
    cases hcol.symm.trans hcol'
    cases hstorage.symm.trans hkeys
    rw [List.getElem?_toArray] at hi
    have hlength : keys.length = contents.rows.length := howns.length.trans (List.length_map _)
    have hlt : i < contents.rows.length := hlength ▸ (List.getElem?_eq_some_iff.1 hi).1
    refine ⟨contents, contents.rows[i], hread, ⟨_, hstands⟩, List.getElem?_eq_getElem hlt, ?_⟩
    refine howns.objects i k _ hi ?_
    rw [List.getElem?_map, List.getElem?_eq_getElem hlt, Option.map_some]
  · rcases exists_ids_of_rebuild hsubset hrebuild with ⟨ids, -, rfl, rfl⟩
    rcases (stands_withFounded (rebuiltSubset t config number ids) []).collection
      with ⟨col', hcol', -, -, hplaces⟩
    cases hcol.symm.trans hcol'
    cases hstorage.symm.trans hplaces

section Waiting

variable {contents : Contents t} {row : Row t}

/-- What is kept for a rebuilt object is kept as long as the collection waits. -/
theorem RebuiltAt.lasts (h : RebuiltAt s₁ c i k number contents row) (hlasts : Lasts s₁ s c) :
    (∃ number' storage,
      s.Stands c t number' storage (some ⟨number, .stored contents.toMany contents.toOne⟩)) ∧
    ∃ body : Body t, s.objects.get? k = some ⟨t, .owned c i, body⟩ ∧
      body.toMany = row.body.toMany := by
  rcases h.stands with ⟨storage, hstands⟩
  rcases hlasts.stands hstands with ⟨number', storage', hstands', -⟩
  rcases (hlasts.windows i k _).2 ⟨row.body, h.object, rfl⟩ with ⟨body, ho, hwindows⟩
  exact ⟨⟨number', storage', hstands'⟩, body, ho, hwindows⟩

/-- A to-many relation of a rebuilt object cannot be read before resolution. -/
theorem RebuiltAt.related (h : RebuiltAt s₁ c i k number contents row) (hlasts : Lasts s₁ s c)
    (r : Fin t.toMany.length) :
    s.related t (some k) r = .error (.unresolvedReferences t.name number) := by
  rcases h.lasts hlasts with ⟨⟨number', storage, hstands⟩, body, ho, hwindows⟩
  have hbody : s.body t k = .ok body := body_eq_ok_iff.2 ⟨_, ho, by simp⟩
  rw [related_eq_map hbody, links_of_stored hstands ho hwindows r]
  rfl

/-- The address of a to-one relation waits with the collection. -/
theorem RebuiltAt.waiting? (h : RebuiltAt s₁ c i k number contents row) (hlasts : Lasts s₁ s c)
    (r : Fin t.toOne.length) : s.waiting? k r = contents.toOne[r][i]? := by
  rcases h.lasts hlasts with ⟨⟨number', storage, config', generation, prepared, hcol⟩, body, ho, -⟩
  rw [waiting?_of_owned (tracking?_of_get? ho), hcol, Option.bind_some, Collection.waitingAt,
    dif_pos r.isLt]
  rfl

end Waiting

/-! ## Reading the relations of a collection that waits -/

theorem relatedAs_eq_error {r : Nat} {e : Error} (h : s.related t (some k) r = .error e)
    (u : DataType) : s.relatedAs t u (some k) r = .error e := by
  rw [relatedAs, h]
  rfl

theorem singleAs_eq_none {r : Nat} (h : s.single t (some k) r = .ok none) (u : DataType) :
    s.singleAs t u (some k) r = .ok none := by
  rw [singleAs, h]
  rfl

/-- Until the collection is resolved every to-many relation of a rebuilt object fails, and a to-one
relation to which nothing was set reads as not set, whatever address is stored for it. -/
theorem relations_of_isWaiting (h : Reachable s₀)
    (hrebuild : rebuild t b number config s₀ = (.ok c, s₁)) (steps : Steps s₁ s)
    (hwaits : s.IsWaiting c) (hlists : s₁.ListsAt c i k) :
    (∀ r : Fin t.toMany.length,
      s.related t (some k) r = .error (.unresolvedReferences t.name number) ∧
      ∀ u, s.relatedAs t u (some k) r = .error (.unresolvedReferences t.name number)) ∧
    ∀ r : Fin t.toOne.length, Relation.ReflTransGen (LeavesPlace k r none) s₁ s →
      s.single t (some k) r = .ok none ∧ (∀ u, s.singleAs t u (some k) r = .ok none) ∧
      ∃ ids id, b.relationIds (t.toMany.length + r) = .ok ids ∧ ids[i]? = some id ∧
        s.waiting? k r = some id := by
  rcases lasts_of_rebuild h hrebuild steps hwaits with ⟨hreachable, hlasts⟩
  rcases exists_rebuiltAt hrebuild hlists with ⟨contents, row, hread, hrebuilt⟩
  constructor
  · intro r
    have hrelated := hrebuilt.related hlasts r
    exact ⟨hrelated, relatedAs_eq_error hrelated⟩
  · intro r run
    -- the address is stored with the collection, at the position of the object
    obtain ⟨id, hid⟩ : ∃ id, contents.toOne[r][i]? = some id := by
      rcases Contents.getElem?_rows hrebuilt.isRow with ⟨record, hrecord, -⟩
      have hlt : i < contents.toOne[r].length :=
        hread.singles r ▸ (List.getElem?_eq_some_iff.1 hrecord).1
      exact ⟨_, List.getElem?_eq_getElem hlt⟩
    have hwaiting : s.waiting? k r = some id := (hrebuilt.waiting? hlasts r).trans hid
    -- the object itself has nothing for the relation, and only resolution or an assignment would
    -- change that
    have hslot : s₁.slot? k r = some (t, none) :=
      slot?_eq_some_iff.2 ⟨_, _, r.isLt, hrebuilt.object, by simp [Row.body]⟩
    have hslot' : s.slot? k r = some (t, none) := by
      cases (LeavesPlace.treatsSlot_of_run hreachable hslot run).2 with
      | isKept hkept => exact hkept.slot.trans hslot
      | isFilled _ hfilled => cases hwaiting.symm.trans hfilled
    have hsingle : s.single t (some k) r = .ok none := by
      rcases hrebuilt.lasts hlasts with ⟨-, body, ho, -⟩
      refine single_of_slot? hslot' ?_
      simp [isAvailable, ho, Object.isReleased]
    exact ⟨hsingle, singleAs_eq_none hsingle, _, id, hread.toOne r, hid, hwaiting⟩

/-- The mesh before it is resolved, under another number. -/
def renumberedMesh : Store :=
  (setCollectionId 0 ⟨9⟩ meshStore).2

theorem relations_renumberedMesh :
    renumberedMesh.related meshType (some 0) 0 = .error (.unresolvedReferences "Mesh" ⟨7⟩) ∧
      renumberedMesh.single meshType (some 0) 0 = .ok none ∧
      renumberedMesh.waiting? 0 0 = some ⟨0, ⟨7⟩⟩ := by
  have hstep : Step meshStore renumberedMesh := .setCollectionId 0 ⟨9⟩ (by decide +kernel)
  have hwaits : renumberedMesh.IsWaiting 0 := by decide +kernel
  have hlists : meshStore.ListsAt 0 0 0 :=
    reachable_meshStore.wellFormed.listsAt_iff.2 (by decide +kernel)
  have hslot : renumberedMesh.slot? 0 0 = some (meshType, none) := by decide +kernel
  rcases relations_of_isWaiting .empty rebuild_meshBuffers (.single hstep) hwaits hlists
    with ⟨hmany, hone⟩
  rcases hone ⟨0, by decide⟩ (.single (.of_slot hstep hslot)) with ⟨hsingle, -, -⟩
  exact ⟨(hmany ⟨0, by decide⟩).1, hsingle, by decide +kernel⟩

end EventModel.Store
