import EventModel.Proofs.Results
import EventModel.Store.Flatten

/-!
# Collections that lose targets

A flat form is put together from the addresses of what the relations and places of a collection lead
to. If some of these targets become unavailable and all others keep their addresses, then the
collection is flattened as before, or not at all (`LosesOnlyTargets.flattenCollection`). Two stores of
which neither has lost anything to the other flatten it in the same way.
-/

namespace EventModel

variable {α β : Type}

/-- The second computation ends like the first one, or something that it needs is unavailable. -/
def OrUnavailable (x y : Except Error α) : Prop :=
  y = x ∨ y = .error .unavailable

namespace OrUnavailable

theorem refl (x : Except Error α) : OrUnavailable x x :=
  .inl rfl

theorem antisymm {x y : Except Error α} (h : OrUnavailable x y) (h' : OrUnavailable y x) : y = x := by
  rcases h with heq | hy
  · exact heq
  · rcases h' with heq | hx
    · exact heq.symm
    · rw [hx, hy]

theorem bind {x y : Except Error α} {f g : α → Except Error β} (h : OrUnavailable x y)
    (hfg : ∀ a, x = .ok a → OrUnavailable (f a) (g a)) : OrUnavailable (x >>= f) (y >>= g) := by
  rcases h with rfl | rfl
  · rcases y with e | a
    · exact .refl _
    · exact hfg a rfl
  · exact .inr rfl

theorem mapM {f g : α → Except Error β} {xs : List α} (h : ∀ x ∈ xs, OrUnavailable (f x) (g x)) :
    OrUnavailable (xs.mapM f) (xs.mapM g) := by
  induction xs with
  | nil => exact .refl _
  | cons x rest ih =>
    rw [List.mapM_cons, List.mapM_cons]
    refine (h x List.mem_cons_self).bind fun y _ => ?_
    exact (ih fun x' hx' => h x' (List.mem_cons_of_mem x hx')).bind fun ys _ => .refl _

theorem tryOfFn {n : Nat} {f g : Fin n → Except Error α} (h : ∀ i, OrUnavailable (f i) (g i)) :
    OrUnavailable (tryOfFn f) (tryOfFn g) := by
  induction n with
  | zero => exact .refl _
  | succ n ih =>
    unfold EventModel.tryOfFn
    rcases ih fun i => h i.castSucc with heq | heq
    · rw [heq]
      rcases EventModel.tryOfFn fun i : Fin n => f i.castSucc with e | front
      · exact .refl _
      · rcases h (Fin.last n) with hlast | hlast
        · exact .inl (by rw [hlast])
        · exact .inr (by rw [hlast])
    · exact .inr (by rw [heq])

end OrUnavailable

namespace Store

variable {s s' : Store} {k : ObjectKey} {t : DataType} {col : Collection}

theorem relatedIds_orUnavailable {body : Body t} {r : Fin t.toMany.length}
    (horigin : s'.originOf t k = s.originOf t k)
    (hlink : ∀ ks, s.links k body r = .ok ks →
      ∀ k' ∈ ks, OrUnavailable (s.linkId k') (s'.linkId k')) :
    OrUnavailable (s.relatedIds k body r) (s'.relatedIds k body r) := by
  unfold links at hlink
  unfold relatedIds
  rcases hmany : body.toMany with lists | windows
  · simp only [hmany] at hlink ⊢
    exact .mapM (hlink _ rfl)
  · simp only [hmany] at hlink ⊢
    rw [horigin]
    refine (OrUnavailable.refl _).bind fun origin hfound => ?_
    simp only [hfound, bind, Except.bind] at hlink
    rcases hcolumns : origin.columns with ⟨many, one⟩ | many
    · exact .refl _
    · simp only [hcolumns] at hlink
      refine (OrUnavailable.refl _).bind fun ks hslice => .mapM (hlink ks hslice)

theorem mem_linkedObjects_of_links {body : Body t} {r : Fin t.toMany.length} {ks : List ObjectKey}
    (hbody : s.body t k = .ok body) (hlinks : s.links k body r = .ok ks) {k' : ObjectKey}
    (hk' : k' ∈ ks) : k' ∈ s.linkedObjects t k := by
  rw [linkedObjects, hbody]
  refine List.mem_append_left _ (List.mem_flatMap.2 ⟨r, List.mem_finRange r, ?_⟩)
  rw [hlinks]
  exact hk'

theorem mem_linkedObjects_of_toOne {body : Body t} {r : Fin t.toOne.length} {k' : ObjectKey}
    (hbody : s.body t k = .ok body) (hr : body.toOne[r] = some k') : k' ∈ s.linkedObjects t k := by
  rw [linkedObjects, hbody]
  refine List.mem_append_right _ (List.mem_filterMap.2 ⟨some k', ?_, rfl⟩)
  rw [← hr]
  exact Array.mem_toList_iff.2 (Vector.getElem_mem r.isLt).val

theorem flattenObject_orUnavailable {origin : Option (Origin t)} {extents : Extents t}
    {position : Nat} (hbody : s'.body t k = s.body t k) (horigin : s'.originOf t k = s.originOf t k)
    (hlink : ∀ k' ∈ s.linkedObjects t k, OrUnavailable (s.linkId k') (s'.linkId k')) :
    OrUnavailable (s.flattenObject t origin extents position k)
      (s'.flattenObject t origin extents position k) := by
  unfold flattenObject
  rw [hbody]
  refine (OrUnavailable.refl _).bind fun body hfound => ?_
  refine (OrUnavailable.tryOfFn fun r => ?_).bind fun toMany _ => ?_
  · refine OrUnavailable.bind (relatedIds_orUnavailable horigin fun ks hks k' hk' => ?_) fun ids _ => .refl _
    exact hlink k' (mem_linkedObjects_of_links hfound hks hk')
  · refine (OrUnavailable.refl _).bind fun windows _ => ?_
    refine (OrUnavailable.tryOfFn fun r => ?_).bind fun toOne _ => .refl _
    rcases hr : body.toOne[r] with _ | target
    · exact .refl _
    · exact (hlink target (mem_linkedObjects_of_toOne hfound hr)).bind fun id _ => .refl _

theorem flattenObjects_orUnavailable {origin : Option (Origin t)} {ks : List ObjectKey}
    (h : ∀ k ∈ ks, ∀ extents position, OrUnavailable (s.flattenObject t origin extents position k)
      (s'.flattenObject t origin extents position k)) (extents : Extents t) (position : Nat) :
    OrUnavailable (s.flattenObjects t origin extents position ks)
      (s'.flattenObjects t origin extents position ks) := by
  induction ks generalizing extents position with
  | nil => exact .refl _
  | cons k rest ih =>
    refine (h k List.mem_cons_self extents position).bind fun row _ => ?_
    exact (ih (fun k' hk' => h k' (List.mem_cons_of_mem k hk')) _ _).bind fun rows _ => .refl _

/-- The objects of the collection stay, and what they and its places lead to keeps its address or is
unavailable. -/
structure LosesOnlyTargets (s s' : Store) (col : Collection) : Prop where
  bodies : ∀ k ∈ col.storage.objects, s'.body col.type k = s.body col.type k
  origins : ∀ k ∈ col.storage.objects, s'.originOf col.type k = s.originOf col.type k
  links : ∀ k ∈ col.storage.objects, ∀ k' ∈ s.linkedObjects col.type k,
    OrUnavailable (s.linkId k') (s'.linkId k')
  places : ∀ k ∈ col.storage.linked, OrUnavailable (s.idOf (some k)) (s'.idOf (some k))

theorem LosesOnlyTargets.flattenCollection (h : LosesOnlyTargets s s' col) :
    OrUnavailable (s.flattenCollection col) (s'.flattenCollection col) := by
  rcases h with ⟨hbodies, horigins, hlinks, hplaces⟩
  unfold Store.flattenCollection
  rcases hstorage : col.storage with objects | slots
  · rw [hstorage] at hbodies horigins hlinks
    refine (flattenObjects_orUnavailable (fun k hk extents position => ?_) _ _).bind fun rows _ => .refl _
    exact flattenObject_orUnavailable (hbodies k hk) (horigins k hk) (hlinks k hk)
  · rw [hstorage] at hplaces
    refine (OrUnavailable.mapM fun slot hslot => ?_).bind fun ids _ => .refl _
    rcases slot with id | k
    · exact .refl _
    · exact hplaces k (List.mem_filterMap.2 ⟨.linked k, hslot, rfl⟩)

/-- Stores that lose nothing to each other flatten the collection in the same way. -/
theorem LosesOnlyTargets.flattenCollection_eq (h : LosesOnlyTargets s s' col)
    (h' : LosesOnlyTargets s' s col) : s'.flattenCollection col = s.flattenCollection col :=
  h.flattenCollection.antisymm h'.flattenCollection

end Store

end EventModel
