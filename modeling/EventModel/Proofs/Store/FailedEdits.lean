import EventModel.Proofs.Store.Edits
import EventModel.Proofs.Store.Losses

/-!
# Edits that fail

An edit that is refused by a check of its arguments changes nothing. One that has opened its object
and then fails, when it copies the links of the object, leaves a count behind: the collection that
owns the object has counted a change (`IsRefused`). Nothing that is read of objects and collections
depends on these counts, and collections are flattened as before (`HoldsSame.unchanged`). A target
that is passed by reference is held for the call and given back when it fails, so that no handle is
lost either (`noTrace_of_edit_error`).
-/

namespace EventModel.Store

variable {s s' : Store} {k : ObjectKey} {t : DataType} {α : Type} {e : Error}

/-! ## Stores that hold the same -/

/-- Both stores hold the same handles, objects and collections. They may differ in the number of
handles that an object counts, in the changes that a collection counts and in what was prepared. -/
structure HoldsSame (s s' : Store) : Prop extends Quiet s s' where
  handles : ∀ h, s'.handles.get? h = s.handles.get? h
  ids : ∀ c, (s'.collections.get? c).map (·.id) = (s.collections.get? c).map (·.id)

namespace HoldsSame

theorem symm (h : HoldsSame s s') : HoldsSame s' s where
  toQuiet := h.toQuiet.symm
  handles key := (h.handles key).symm
  ids c := (h.ids c).symm

theorem get?_cases (h : HoldsSame s s') (k : ObjectKey) :
    s'.objects.get? k = s.objects.get? k ∨
      ∃ (t : DataType) (body : Body t) (n m : UInt32),
        s.objects.get? k = some ⟨t, .floating n, body⟩ ∧
          s'.objects.get? k = some ⟨t, .floating m, body⟩ := by
  rcases ho : s.objects.get? k with _ | o
  · have hnone := h.objects k
    rw [ho, Option.map_none, Option.map_eq_none_iff] at hnone
    exact .inl hnone
  · by_cases hfloating : ∃ n, o.tracking = .floating n
    · rcases hfloating with ⟨n, hn⟩
      rcases h.symm.object ho with ⟨o', ho', hsettled⟩
      rcases Object.isFloating_of_settled_eq hsettled.symm hn with ⟨m, hm⟩
      rcases o with ⟨t, tracking, body⟩
      cases hn
      refine .inr ⟨t, body, n, m, rfl, ?_⟩
      rw [ho', Object.eq_of_settled_eq hsettled.symm, hm]
    · exact .inl (h.object_of_not_floating ho fun n hn => hfloating ⟨n, hn⟩)

theorem collection_cases (h : HoldsSame s s') (c : CollectionKey) :
    (s.collections.get? c = none ∧ s'.collections.get? c = none) ∨
      ∃ col generation prepared, s.collections.get? c = some col ∧
        s'.collections.get? c = some { col with generation, prepared } := by
  rcases hcol' : s'.collections.get? c with _ | col'
  · have hnone := h.collections c
    rw [hcol', Option.map_none, eq_comm, Option.map_eq_none_iff] at hnone
    exact .inl ⟨hnone, rfl⟩
  · rcases h.collection hcol' with ⟨col, hcol, heq⟩
    have hid := h.ids c
    rw [hcol, hcol', Option.map_some, Option.map_some, Option.some_inj] at hid
    refine .inr ⟨col, col'.generation, col'.prepared, hcol, congrArg some ?_⟩
    rw [heq, hid]

theorem map_get? {β : Type} {f : Collection → β} (h : HoldsSame s s')
    (hf : ∀ col generation prepared, f { col with generation, prepared } = f col)
    (c : CollectionKey) : (s'.collections.get? c).map f = (s.collections.get? c).map f := by
  rcases h.collection_cases c with ⟨hcol, hcol'⟩ | ⟨col, generation, prepared, hcol, hcol'⟩
  · rw [hcol, hcol']
  · rw [hcol, hcol', Option.map_some, Option.map_some, hf]

theorem target (h : HoldsSame s s') : s'.target = s.target := by
  funext r
  rw [Store.target, Store.target, h.handles]

/-! ### Objects -/

theorem isHeld (h : HoldsSame s s') (k : ObjectKey) : s'.isHeld k = s.isHeld k := by
  unfold Store.isHeld
  rw [Bool.eq_iff_iff, Arena.any_eq_true_iff, Arena.any_eq_true_iff]
  simp only [h.handles]

theorem existsObject (h : HoldsSame s s') : s'.existsObject = s.existsObject := by
  funext k
  have hsubset := isInSubset_congr (h.map_get? fun _ _ _ => rfl) k
  unfold Store.existsObject
  rw [h.isHeld, hsubset]
  rcases h.get?_cases k with heq | ⟨t, body, n, m, ho, ho'⟩
  · rw [heq]
  -- a floating object exists as long as it is held, however many handles it counts
  · rw [ho, ho']

theorem addressOf (h : HoldsSame s s') (o : Object) : s'.addressOf o = s.addressOf o := by
  unfold Store.addressOf
  rcases o.tracking with n | ⟨c, i⟩ | _
  · rfl
  · rcases h.collection_cases c with ⟨hcol, hcol'⟩ | ⟨col, generation, prepared, hcol, hcol'⟩
    · simp only [hcol, hcol']
    · simp only [hcol, hcol']
  · rfl

theorem isAvailable (h : HoldsSame s s') : s'.isAvailable = s.isAvailable := by
  funext target
  rcases target with _ | k
  · rfl
  · unfold Store.isAvailable
    rw [Option.bind_some, Option.bind_some]
    rcases h.get?_cases k with heq | ⟨t, body, n, m, ho, ho'⟩
    · rw [heq]
    · rw [ho, ho']
      rfl

theorem idOf (h : HoldsSame s s') : s'.idOf = s.idOf := by
  funext target
  rcases target with _ | k
  · rfl
  · unfold Store.idOf available
    rw [Option.bind_some, Option.bind_some]
    rcases h.get?_cases k with heq | ⟨t, body, n, m, ho, ho'⟩
    · rw [heq, funext h.addressOf]
    -- the address of a floating object does not depend on the number of its handles
    · rw [ho, ho']
      rfl

theorem body (h : HoldsSame s s') (t : DataType) (k : ObjectKey) : s'.body t k = s.body t k := by
  rcases h.get?_cases k with heq | ⟨u, body, n, m, ho, ho'⟩
  · exact body_congr heq t
  · unfold Store.body object
    rw [ho, ho']
    rfl

theorem originOf (h : HoldsSame s s') (t : DataType) (k : ObjectKey) :
    s'.originOf t k = s.originOf t k := by
  rcases h.get?_cases k with heq | ⟨u, body, n, m, ho, ho'⟩
  · exact originOf_congr (tracking?_congr heq) (h.map_get? fun _ _ _ => rfl)
  · unfold Store.originOf object
    rw [ho, ho']
    rfl

theorem readsSame (h : HoldsSame s s') : ReadsSame none s s' := by
  refine BodiesShowSame.readsSame ⟨h.existsObject, fun k t => ?_⟩
  rw [h.body]
  rcases s.body t k with e | body
  · exact .error e
  · exact .ok (.refl (h.originOf t k) body)

/-! ### Collections -/

theorem map_collection {β : Type} {f : Collection → β} (h : HoldsSame s s')
    (hf : ∀ col generation prepared, f { col with generation, prepared } = f col)
    (c : CollectionKey) : (s'.collection c).map f = (s.collection c).map f := by
  unfold Store.collection
  rcases h.collection_cases c with ⟨hcol, hcol'⟩ | ⟨col, generation, prepared, hcol, hcol'⟩
  · rw [hcol, hcol']
  · rw [hcol, hcol']
    exact congrArg Except.ok (hf col generation prepared)

theorem losesOnlyTargets (h : HoldsSame s s') (col : Collection) : LosesOnlyTargets s s' col where
  bodies k _ := h.body col.type k
  origins k _ := h.originOf col.type k
  links _ _ k' _ := .inl (by rw [linkId, linkId, h.existsObject, h.idOf])
  places k _ := .inl (by rw [h.idOf])

theorem flatten (h : HoldsSame s s') : s'.flatten = s.flatten := by
  funext c
  unfold Store.flatten Store.collection
  rcases h.collection_cases c with ⟨hcol, hcol'⟩ | ⟨col, generation, prepared, hcol, hcol'⟩
  · rw [hcol, hcol']
    rfl
  · rw [hcol, hcol']
    exact (h.losesOnlyTargets col).flattenCollection_eq (h.symm.losesOnlyTargets col)

end HoldsSame

theorem isUnresolved_recounted (col : Collection) (generation : Nat) (prepared : Option Prepared) :
    { col with generation, prepared }.isUnresolved = col.isUnresolved := by
  rcases col with ⟨type, id, config, storage, _, _, _ | ⟨id, _ | _⟩⟩ <;> rfl

/-! ## What an edit that fails leaves as it was -/

/-- What is read of all objects and collections, through any handle, is the same in both stores. -/
structure Unchanged (s s' : Store) : Prop where
  target : s'.target = s.target
  payload : s'.payload = s.payload
  members : s'.members = s.members
  related : s'.related = s.related
  relatedSize : s'.relatedSize = s.relatedSize
  single : s'.single = s.single
  idOf : s'.idOf = s.idOf
  isAvailable : s'.isAvailable = s.isAvailable
  size : ∀ c, (s'.collection c).map Collection.size = (s.collection c).map Collection.size
  isSubset : ∀ c,
    (s'.collection c).map Collection.isSubset = (s.collection c).map Collection.isSubset
  isUnresolved : ∀ c,
    (s'.collection c).map Collection.isUnresolved = (s.collection c).map Collection.isUnresolved
  places : ∀ c, (s'.collection c).map places = (s.collection c).map places
  flatten : s'.flatten = s.flatten

/-- Nothing that is read is changed, and floating objects count as many handles as before. -/
structure NoTrace (s s' : Store) : Prop extends Unchanged s s' where
  handlesOfFloating? : s'.handlesOfFloating? = s.handlesOfFloating?

theorem HoldsSame.unchanged (h : HoldsSame s s') : Unchanged s s' where
  target := h.target
  payload := h.readsSame.payload
  members := h.readsSame.members
  related := by
    funext t target relation
    rcases target with _ | k
    · rfl
    · exact h.readsSame.related t k relation (by simp)
  relatedSize := by
    funext t target relation
    rcases target with _ | k
    · rfl
    · exact h.readsSame.relatedSize t k relation (by simp)
  single := h.readsSame.single
  idOf := h.idOf
  isAvailable := h.isAvailable
  size := h.map_collection fun _ _ _ => rfl
  isSubset := h.map_collection fun _ _ _ => rfl
  isUnresolved := h.map_collection isUnresolved_recounted
  places := h.map_collection fun _ _ _ => rfl
  flatten := h.flatten

theorem HoldsSame.noTrace (h : HoldsSame s s')
    (hobjects : ∀ k, s'.objects.get? k = s.objects.get? k) : NoTrace s s' where
  toUnchanged := h.unchanged
  handlesOfFloating? := by
    funext target
    rcases target with _ | k
    · rfl
    · simp only [Store.handlesOfFloating?, Option.bind_some, hobjects]

/-! ## Calls that fail -/

/-- What a failed edit leaves: the store as it was, or a change that the owner of an object counts. -/
inductive IsRefused (s : Store) : Store → Prop
  | untouched : IsRefused s s
  | counted (k : ObjectKey) : IsRefused s (s.advanceOwner k)

namespace IsRefused

theorem of_eq (h : s' = s) : IsRefused s s' := by
  rw [h]
  exact .untouched

/-- What follows a question is refused if it fails in the same store. -/
theorem ask_bind {β : Type} {x : Except Error β} {f : β → Action α}
    (hrun : (liftM x >>= f) s = (.error e, s'))
    (hf : ∀ y, f y s = (.error e, s') → IsRefused s s') : IsRefused s s' := by
  rcases ask_bind_eq_error hrun with heq | ⟨y, -, hrun⟩
  · exact .of_eq heq
  · exact hf y hrun

/-- The body is computed as a whole before it takes the place of the old one. -/
theorem edit {handle : MutableHandle t} {f : Store → ObjectKey → Body t → Except Error (Body t)}
    (hrun : Store.edit handle f s = (.error e, s')) : IsRefused s s' := by
  unfold Store.edit at hrun
  rcases hbody : s.bodyOf t (s.target handle.toReference) with e' | ⟨k, body⟩
  · rw [hbody] at hrun
    cases hrun
    exact .untouched
  · -- the object is open, and its owner counts that in either case
    simp only [hbody] at hrun
    rcases hnew : f s k body with e' | new
    · rw [hnew] at hrun
      cases hrun
      exact .counted k
    · rw [hnew] at hrun
      cases hrun

theorem objects (h : IsRefused s s') : s'.objects = s.objects := by
  cases h with
  | untouched => rfl
  | counted k => exact advanceOwner_objects s k

theorem holdsSame (h : IsRefused s s') : HoldsSame s s' := by
  cases h with
  | untouched => exact ⟨quiet_of_eq rfl rfl, fun _ => rfl, fun _ => rfl⟩
  | counted k =>
    refine ⟨quiet_advanceOwner s k, fun h => ?_, map_get?_advanceOwner (fun _ => rfl) k⟩
    rw [advanceOwner_handles]

end IsRefused

theorem setSubset_eq_error {c : CollectionKey} {subset : Bool}
    (hrun : setSubset c subset s = (.error e, s')) : s' = s := by
  rcases setSubset_cases c subset s with ⟨_, hset, -⟩ | ⟨col, -, ⟨-, hset⟩ | ⟨-, -, hset⟩⟩ <;>
    cases hrun.symm.trans hset
  rfl

theorem Edit.isRefused {edit : Edit} (hrun : edit.run s = (.error e, s')) : IsRefused s s' := by
  cases edit with
  | setPayload handle payload =>
    rw [run, Store.setPayload, Store.updatePayload] at hrun
    exact .edit hrun
  | updatePayload handle f =>
    rw [run, Store.updatePayload] at hrun
    exact .edit hrun
  | addRelated handle relation target =>
    -- index and target are checked first, so that only the copy of the links can fail later
    refine .ask_bind hrun fun r hrun => ?_
    rw [get_bind_apply, get_bind_apply] at hrun
    exact .ask_bind hrun fun k hrun => .edit hrun
  | clearRelated handle relation => exact .ask_bind hrun fun r hrun => .edit hrun
  | setSingle handle relation target =>
    rcases setSingle_cases handle relation target s
      with ⟨e', herror⟩ | ⟨r, k, body, -, -, -, -, hok⟩
    · cases herror.symm.trans hrun
      exact .untouched
    · cases hok.symm.trans hrun
  | pushMember handle member value => exact .ask_bind hrun fun m hrun => .edit hrun
  | setMembers handle member values => exact .ask_bind hrun fun m hrun => .edit hrun
  | create t c payload =>
    change (Store.create t c payload >>= fun _ => pure ()) s = _ at hrun
    rw [bind_apply] at hrun
    rcases hcreate : Store.create t c payload s with ⟨e' | handle, s''⟩
    · rw [hcreate] at hrun
      cases hrun
      exact .of_eq ((allOrNothing_create t c payload s).eq_of_error hcreate)
    · rw [hcreate] at hrun
      cases hrun
  | push c handle => exact .of_eq ((allOrNothing_push c handle s).eq_of_error hrun)
  | setSubset c subset => exact .of_eq (setSubset_eq_error hrun)

/-! ## Targets that are passed by reference -/

namespace Edit

/-- What an edit links to. -/
def target? : Edit → Option Reference
  | addRelated _ _ target | setSingle _ _ target => some target
  | _ => none

/-- The edit with another reference to its target. -/
def withTarget : Edit → Reference → Edit
  | addRelated h relation _, held => addRelated h relation held
  | setSingle h relation _, held => setSingle h relation held
  | edit, _ => edit

/-- The edit with its target passed by reference: it is held by a reference of its own, which is given
back when the call returns. -/
def call (edit : Edit) : Action Unit :=
  match edit.target? with
  | some target => do
    let held ← erase target
    thenDrop [held] (edit.withTarget held).run
  | none => edit.run

end Edit

/-- The target counts its handles, and cannot count another one. -/
def CountsFull (s : Store) (target : Reference) : Prop :=
  s.handlesOfFloating? (s.target target) = some (2 ^ 32 - 1)

theorem add_one_ne_zero_of_counts {target : Reference} {o : Object} {n : UInt32}
    (hcounts : ¬ s.CountsFull target) (htarget : s.target target = some k)
    (ho : s.objects.get? k = some o) (hn : o.tracking = .floating n) : n + 1 ≠ 0 := by
  intro hfull
  apply hcounts
  have hcount : n.toNat = 2 ^ 32 - 1 := by
    have hlt := n.toNat_lt
    have hzero : (n.toNat + 1) % 2 ^ 32 = 0 := by
      simpa [UInt32.toNat_add] using congrArg UInt32.toNat hfull
    omega
  rcases o with ⟨t, tracking, body⟩
  cases hn
  simp only [CountsFull, Store.handlesOfFloating?, htarget, Option.bind_some, ho, hcount]

/-- The handle that was held for a call is gone, and its target counts one handle less again. -/
theorem HoldsSame.of_givenBack {place : Option ObjectKey} (h : IsRefused (s.withHandle place) s') :
    HoldsSame s (drop ⟨s.handles.next⟩ s').2 where
  toQuiet := (quiet_withHandle s place).trans (h.holdsSame.toQuiet.trans (quiet_drop _ s'))
  handles key := by
    rw [drop_handles_get?, h.holdsSame.handles, withHandle_handles, Arena.get?_insert]
    by_cases hkey : s.handles.next = key
    · rw [if_pos hkey, Arena.get?_eq_none_of_next_le (Nat.le_of_eq hkey)]
    · rw [if_neg hkey, if_neg fun heq => hkey heq.symm]
  ids c := calc
    ((drop ⟨s.handles.next⟩ s').2.collections.get? c).map (·.id) =
        (s'.collections.get? c).map (·.id) := by rw [drop_collections]
    _ = ((s.withHandle place).collections.get? c).map (·.id) := h.holdsSame.ids c
    _ = (s.collections.get? c).map (·.id) := by rw [withHandle_collections]

theorem get?_givenBack {target : Reference} (hcounts : ¬ s.CountsFull target)
    (h : IsRefused (s.withHandle (s.target target)) s') (k : ObjectKey) :
    (drop ⟨s.handles.next⟩ s').2.objects.get? k = s.objects.get? k := by
  have hheld : s'.target ⟨s.handles.next⟩ = s.target target := by
    rw [Store.target, h.holdsSame.handles, withHandle_handles, Arena.get?_insert_next]
    rfl
  rw [drop_objects_get?, hheld, h.objects]
  rcases htarget : s.target target with _ | k'
  · rfl
  simp only [withHandle_some_objects, Arena.get?_modify, Option.some_inj]
  by_cases hk : k' = k
  · subst hk
    rw [if_pos rfl, if_pos rfl, Option.map_map]
    rcases ho : s.objects.get? k' with _ | o
    · rfl
    · -- the target has the handle counted and given back, with nothing in between
      refine congrArg some (Object.letGo_acquire fun n hn => ?_)
      exact add_one_ne_zero_of_counts hcounts htarget ho hn
  · rw [if_neg hk, if_neg hk]

theorem dropAll_singleton (r : Reference) (s : Store) : (dropAll [r] s).2 = (drop r s).2 := by
  rw [dropAll, bind_apply]
  rcases drop r s with ⟨e | x, s'⟩ <;> rfl

/-- A call that fails is refused in the store in which its target is held, which is given back. -/
theorem Edit.call_eq_error {edit : Edit} {target : Reference} (htarget : edit.target? = some target)
    (hrun : edit.call s = (.error e, s')) :
    ∃ refused, IsRefused (s.withHandle (s.target target)) refused ∧
      s' = (drop ⟨s.handles.next⟩ refused).2 := by
  have hheld : erase target s = (.ok ⟨s.handles.next⟩, s.withHandle (s.target target)) := by
    rw [erase, get_bind_apply, refer_apply]
  simp only [call, htarget] at hrun
  rw [bind_apply_of_ok hheld, thenDrop] at hrun
  rcases hresult : (edit.withTarget ⟨s.handles.next⟩).run (s.withHandle (s.target target))
    with ⟨result, refused⟩
  simp only [hresult] at hrun
  cases hrun
  exact ⟨refused, Edit.isRefused hresult, dropAll_singleton _ refused⟩

/-- An edit that fails leaves no trace in what is read of objects and collections, whatever it fails
for and whatever store it fails in. Neither does one that gets its target by reference, as long as
the target can count the handle that is held for the call. In a run, edits fail exactly if they are
not allowed. -/
theorem noTrace_of_edit_error :
    (∀ {s s' : Store} {edit : Edit} {e : Error}, edit.run s = (.error e, s') → NoTrace s s') ∧
    (∀ {s s' : Store} {edit : Edit} {e : Error}, edit.call s = (.error e, s') →
      Unchanged s s' ∧
        ((∀ target, edit.target? = some target → ¬ s.CountsFull target) → NoTrace s s')) ∧
    ∀ {s : Store} {edit : Edit}, Reachable s →
      ((∃ e s', edit.run s = (.error e, s')) ↔ ¬ edit.IsAllowed s) := by
  have hrefused : ∀ {s s' : Store} {edit : Edit} {e : Error}, edit.run s = (.error e, s') →
      NoTrace s s' := by
    intro s s' edit e hrun
    have hrefused := Edit.isRefused hrun
    exact hrefused.holdsSame.noTrace fun k => by rw [hrefused.objects]
  refine ⟨hrefused, ?_, ?_⟩
  · intro s s' edit e hrun
    rcases htarget : edit.target? with _ | target
    · simp only [Edit.call, htarget] at hrun
      exact ⟨(hrefused hrun).toUnchanged, fun _ => hrefused hrun⟩
    · rcases Edit.call_eq_error htarget hrun with ⟨refused, hrefused, rfl⟩
      have hsame := HoldsSame.of_givenBack hrefused
      refine ⟨hsame.unchanged, fun hcounts => hsame.noTrace ?_⟩
      exact get?_givenBack (hcounts target rfl) hrefused
  · intro s edit hs
    rw [← edit.succeeds_run_iff hs.wellFormed, Succeeds]
    rcases edit.run s with ⟨e | ⟨⟩, s'⟩
    · exact iff_of_true ⟨e, s', rfl⟩ (by rintro ⟨_, ⟨⟩⟩)
    · exact iff_of_false (by rintro ⟨_, _, ⟨⟩⟩) fun hnot => hnot ⟨(), rfl⟩

/-- Two nodes whose links are not resolved, with a handle to the first of them, and a node that no
collection owns. -/
def pendingStore : Store :=
  let rebuilt := (rebuild nodeType overlappingBuffers ⟨7⟩ { verify := false } .empty).2
  (newObject nodeType (9 : UInt8) (getMutable nodeType 0 0 rebuilt).2).2

theorem reachable_pendingStore : Reachable pendingStore := by
  have hrebuilt := Reachable.empty.step
    (.rebuild nodeType overlappingBuffers ⟨7⟩ { verify := false })
  exact (hrebuilt.step (.getMutable nodeType 0 0)).step (.newObject nodeType (9 : UInt8))

/-- Links the first node to the one without an owner, while its links cannot be copied. -/
def pendingLink : Edit :=
  .addRelated (t := nodeType) ⟨⟨⟨0⟩⟩⟩ 0 ⟨1⟩

/-- The call fails with the node opened, which is counted, and with a handle to its target, which is
not counted any more. -/
theorem noTrace_of_edit_error_pendingStore :
    Reachable pendingStore ∧
      (pendingLink.call pendingStore).1 = .error (.unresolvedReferences "Node" ⟨7⟩) ∧
      NoTrace pendingStore (pendingLink.call pendingStore).2 ∧
      NoTrace pendingStore (pendingLink.run pendingStore).2 ∧ ¬ pendingLink.IsAllowed pendingStore ∧
      pendingStore.handlesOfFloating? (some 2) = some 1 ∧
      (pendingStore.collections.get? 0).map (·.generation) = some 0 ∧
      ((pendingLink.call pendingStore).2.collections.get? 0).map (·.generation) = some 1 := by
  have hcall : (pendingLink.call pendingStore).1 = .error (.unresolvedReferences "Node" ⟨7⟩) := by
    decide +kernel
  have hrun : (pendingLink.run pendingStore).1 = .error (.unresolvedReferences "Node" ⟨7⟩) := by
    decide +kernel
  have hcounts : ∀ target, pendingLink.target? = some target → ¬ pendingStore.CountsFull target := by
    rintro _ ⟨⟩
    unfold CountsFull
    decide +kernel
  rcases noTrace_of_edit_error with ⟨hruns, hcalls, hallowed⟩
  refine ⟨reachable_pendingStore, hcall, ?_, ?_, ?_, ?_⟩
  · exact (hcalls (Prod.ext hcall rfl)).2 hcounts
  · exact hruns (Prod.ext hrun rfl)
  · exact (hallowed reachable_pendingStore).1 ⟨_, _, Prod.ext hrun rfl⟩
  · decide +kernel

end EventModel.Store
