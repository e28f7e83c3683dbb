import EventModel.Proofs.Store.Closed
import EventModel.Proofs.Store.PrivateLinks
import EventModel.Proofs.Store.Touched

/-!
# When an edit is allowed

What can be read through a handle can be changed through it. An edit of an object succeeds exactly if
what it changes can be read and, if it sets a link, the target is available and has the declared type.
A collection takes what fits its type and its mode (`Edit.succeeds_run_iff`).
-/

namespace EventModel.Store

variable {s s' : Store} {k : ObjectKey} {t : DataType} {α β : Type}

/-! ## Edits -/

/-- A change of an object behind a handle, a new object in a collection, or a switch of its mode. -/
inductive Edit
  | setPayload {t : DataType} (h : MutableHandle t) (payload : t.payload.Value)
  | updatePayload {t : DataType} (h : MutableHandle t) (f : t.payload.Value → t.payload.Value)
  | addRelated {t : DataType} (h : MutableHandle t) (relation : Nat) (target : Reference)
  | clearRelated {t : DataType} (h : MutableHandle t) (relation : Nat)
  | setSingle {t : DataType} (h : MutableHandle t) (relation : Nat) (target : Reference)
  | pushMember {t : DataType} (h : MutableHandle t) (member : Nat) (value : t.element.Value)
  | setMembers {t : DataType} (h : MutableHandle t) (member : Nat) (values : List t.element.Value)
  | create (t : DataType) (c : CollectionKey) (payload : t.payload.Value)
  | push {t : DataType} (c : CollectionKey) (h : Handle t)
  | setSubset (c : CollectionKey) (subset : Bool)

/-- The operation that makes the edit. -/
def Edit.run : Edit → Action Unit
  | .setPayload h payload => Store.setPayload h payload
  | .updatePayload h f => Store.updatePayload h f
  | .addRelated h relation target => Store.addRelated h relation target
  | .clearRelated h relation => Store.clearRelated h relation
  | .setSingle h relation target => Store.setSingle h relation target
  | .pushMember h member value => Store.pushMember h member value
  | .setMembers h member values => Store.setMembers h member values
  | .create t c payload => do let _ ← Store.create t c payload
  | .push c h => Store.push c h
  | .setSubset c subset => Store.setSubset c subset

/-- The object under the key is available, and of the type that a relation declares. -/
def Admits (s : Store) (relation : Option Relation) (k : ObjectKey) : Prop :=
  s.isAvailable (some k) = true ∧ s.typeName? (some k) = relation.map (·.target)

/-- What an edit needs of the store that it is made in. -/
def Edit.IsAllowed (s : Store) : Edit → Prop
  | @setPayload t h _ | @updatePayload t h _ =>
    ∃ payload, s.payload t (s.target h.toReference) = .ok payload
  | @addRelated t h relation target =>
    (∃ places, s.related t (s.target h.toReference) relation = .ok places) ∧
      ∃ k, s.target target = some k ∧ s.Admits t.toMany[relation]? k
  | @clearRelated t h relation =>
    ∃ places, s.related t (s.target h.toReference) relation = .ok places
  | @setSingle t h relation target =>
    (∃ place, s.single t (s.target h.toReference) relation = .ok place) ∧
      ∀ k, s.target target = some k → s.Admits t.toOne[relation]? k
  | @pushMember t h member _ | @setMembers t h member _ =>
    ∃ values, s.members t (s.target h.toReference) member = .ok values
  | create t c _ => ∃ col, s.collections.get? c = some col ∧ col.type = t ∧ col.isSubset = false
  | @push t c h => ∃ col, s.collections.get? c = some col ∧ col.type = t ∧
      (∃ payload, s.payload t (s.target h.toReference) = .ok payload) ∧
      (s.handlesOfFloating? (s.target h.toReference)).isSome = !col.isSubset
  | setSubset c subset => ∃ col, s.collections.get? c = some col ∧
      (subset ≠ col.isSubset → col.isEmpty = true)

/-! ## Operations put together -/

theorem succeeds_ask_bind_iff {x : Except Error β} {f : β → Action α} :
    Succeeds (liftM x >>= f) s ↔ ∃ y, x = .ok y ∧ Succeeds (f y) s := by
  unfold Succeeds
  rw [bind_apply, ask_apply]
  rcases x with e | y
  · simp
  · simp

theorem succeeds_get_bind_iff {f : Store → Action α} :
    Succeeds (get >>= f) s ↔ Succeeds (f s) s := by
  unfold Succeeds
  rw [get_bind_apply]

theorem succeeds_edit_iff {handle : MutableHandle t}
    {f : Store → ObjectKey → Body t → Except Error (Body t)} :
    Succeeds (edit handle f) s ↔ ∃ k body new,
      s.bodyOf t (s.target handle.toReference) = .ok (k, body) ∧ f s k body = .ok new := by
  unfold Succeeds edit
  rcases s.bodyOf t (s.target handle.toReference) with e | ⟨k, body⟩
  · simp
  · rcases hnew : f s k body with e | new
    · simp only [hnew]
      refine iff_of_false (by rintro ⟨_, ⟨⟩⟩) ?_
      rintro ⟨k', body', new, hbody, hnew'⟩
      cases hbody
      cases hnew.symm.trans hnew'
    · simp only [hnew]
      exact iff_of_true ⟨(), trivial⟩ ⟨k, body, new, rfl, hnew⟩

/-! ## What can be read -/

theorem exists_payload_iff {target : Option ObjectKey} :
    (∃ payload, s.payload t target = .ok payload) ↔
      ∃ k body, s.bodyOf t target = .ok (k, body) := by
  unfold Store.payload
  rcases s.bodyOf t target with e | ⟨k, body⟩
  · exact iff_of_false (by rintro ⟨_, ⟨⟩⟩) (by rintro ⟨_, _, ⟨⟩⟩)
  · exact iff_of_true ⟨_, rfl⟩ ⟨k, body, rfl⟩

theorem exists_members_iff {target : Option ObjectKey} {member : Nat} :
    (∃ values, s.members t target member = .ok values) ↔
      ∃ m, checkIndex member t.members.length = .ok m ∧
        ∃ k body, s.bodyOf t target = .ok (k, body) := by
  unfold Store.members
  rcases checkIndex member t.members.length with e | m
  · exact iff_of_false (by rintro ⟨_, ⟨⟩⟩) (by rintro ⟨_, ⟨⟩, -⟩)
  · rcases s.bodyOf t target with e | ⟨k, body⟩
    · exact iff_of_false (by rintro ⟨_, ⟨⟩⟩) (by rintro ⟨_, -, _, _, ⟨⟩⟩)
    · exact iff_of_true ⟨_, rfl⟩ ⟨m, rfl, k, body, rfl⟩

theorem exists_single_iff {target : Option ObjectKey} {relation : Nat} :
    (∃ place, s.single t target relation = .ok place) ↔
      ∃ r, checkIndex relation t.toOne.length = .ok r ∧
        ∃ k body, s.bodyOf t target = .ok (k, body) := by
  unfold Store.single
  rcases checkIndex relation t.toOne.length with e | r
  · exact iff_of_false (by rintro ⟨_, ⟨⟩⟩) (by rintro ⟨_, ⟨⟩, -⟩)
  · rcases s.bodyOf t target with e | ⟨k, body⟩
    · exact iff_of_false (by rintro ⟨_, ⟨⟩⟩) (by rintro ⟨_, -, _, _, ⟨⟩⟩)
    · refine iff_of_true ?_ ⟨r, rfl, k, body, rfl⟩
      simp only [bind, Except.bind]
      rcases body.toOne[r] with _ | k'
      · exact ⟨_, rfl⟩
      · exact ⟨_, rfl⟩

/-- One relation of an object is not read without the others: its windows are in the columns of one
collection, which are resolved together. -/
theorem exists_ownLists_of_links (h : WellFormed s) {body : Body t} (hbody : s.body t k = .ok body)
    {r : Fin t.toMany.length} {ks : List ObjectKey} (hlinks : s.links k body r = .ok ks) :
    ∃ lists, s.ownLists k body = .ok lists := by
  unfold ownLists
  rcases hmany : body.toMany with lists | windows
  · exact ⟨lists, rfl⟩
  · rcases exists_columns h hbody hmany
      with ⟨c, i, col, ⟨id, ⟨many, one⟩ | many⟩, -, -, -, horigin, hfits⟩
    · simp only [links, hmany, horigin] at hlinks
      cases hlinks
    · have hall : ∀ r, s.links k body r = .ok (windows[r].segment many[r]) := fun r => by
        simp only [links, hmany]
        exact bind_eq_ok_iff.2 ⟨_, horigin, Window.slice_eq_ok_iff.2 ⟨hfits r, rfl⟩⟩
      exact ⟨_, tryOfFn_of_forall hall⟩

theorem exists_related_iff (h : WellFormed s) {target : Option ObjectKey} {relation : Nat} :
    (∃ places, s.related t target relation = .ok places) ↔
      ∃ r, checkIndex relation t.toMany.length = .ok r ∧
        ∃ k body lists, s.bodyOf t target = .ok (k, body) ∧ s.ownLists k body = .ok lists := by
  constructor
  · rintro ⟨places, hplaces⟩
    rcases bind_eq_ok_iff.1 hplaces with ⟨r, hr, hplaces⟩
    rcases bind_eq_ok_iff.1 hplaces with ⟨⟨k, body⟩, hbody, hplaces⟩
    rcases bind_eq_ok_iff.1 hplaces with ⟨ks, hks, -⟩
    rcases exists_ownLists_of_links h (bodyOf_eq_ok hbody).2 hks with ⟨lists, hlists⟩
    exact ⟨r, hr, k, body, lists, hbody, hlists⟩
  · rintro ⟨r, hr, k, body, lists, hbody, hlists⟩
    have hlinks := links_of_ownLists hlists r
    refine ⟨lists[r].map s.placeOf, bind_eq_ok_iff.2 ⟨r, hr, ?_⟩⟩
    exact bind_eq_ok_iff.2 ⟨(k, body), hbody, bind_eq_ok_iff.2 ⟨_, hlinks, rfl⟩⟩

/-! ## Targets -/

/-- A target is checked before it is linked to: it may be neither released nor of another type. -/
theorem exists_checkTarget_iff {place : Option ObjectKey} {relation : Relation} :
    (∃ k, s.checkTarget place relation.target = .ok k) ↔
      ∃ k, place = some k ∧ s.Admits (some relation) k := by
  rcases place with _ | k
  · refine iff_of_false (by rintro ⟨_, ⟨⟩⟩) ?_
    rintro ⟨k, ⟨⟩, -⟩
  · simp only [Option.some_inj, exists_eq_left', Admits, Option.map_some]
    rcases ho : s.objects.get? k with _ | ⟨type, tracking, body⟩
    · simp [checkTarget, available, isAvailable, ho, bind, Except.bind]
    · by_cases hreleased : tracking = .released
      · simp [checkTarget, available, isAvailable, ho, hreleased, Object.isReleased, bind,
          Except.bind]
      · by_cases hname : type.name = relation.target
        · simp [checkTarget, available, isAvailable, typeName?, ho, hreleased, Object.isReleased,
            hname, bind, Except.bind, pure, Except.pure]
        · simp [checkTarget, available, isAvailable, typeName?, ho, hreleased, Object.isReleased,
            hname, bind, Except.bind, throw, throwThe, MonadExceptOf.throw]

theorem getElem?_of_checkIndex {relations : List Relation} {i : Nat} {r : Fin relations.length}
    (h : checkIndex i relations.length = .ok r) : relations[i]? = some (relations.get r) := by
  rw [← checkIndex_eq_ok h]
  exact List.getElem?_eq_getElem r.isLt

/-! ## Edits of an object -/

section Object

variable {handle : MutableHandle t} {relation member : Nat} {target : Reference}

theorem succeeds_edit_of_total_iff {g : Body t → Body t} :
    Succeeds (edit handle fun _ _ body => .ok (g body)) s ↔
      ∃ k body, s.bodyOf t (s.target handle.toReference) = .ok (k, body) := by
  rw [succeeds_edit_iff]
  refine exists_congr fun k => exists_congr fun body => ?_
  constructor
  · rintro ⟨_, hbody, -⟩
    exact hbody
  · exact fun hbody => ⟨g body, hbody, rfl⟩

theorem succeeds_edit_lists_iff
    {g : Body t → Vector (List ObjectKey) t.toMany.length → Body t} :
    Succeeds (edit handle fun s own body => do return g body (← s.ownLists own body)) s ↔
      ∃ k body lists, s.bodyOf t (s.target handle.toReference) = .ok (k, body) ∧
        s.ownLists k body = .ok lists := by
  rw [succeeds_edit_iff]
  refine exists_congr fun k => exists_congr fun body => ?_
  constructor
  · rintro ⟨new, hbody, hnew⟩
    rcases bind_eq_ok_iff.1 hnew with ⟨lists, hlists, -⟩
    exact ⟨lists, hbody, hlists⟩
  · rintro ⟨lists, hbody, hlists⟩
    exact ⟨g body lists, hbody, bind_eq_ok_iff.2 ⟨lists, hlists, rfl⟩⟩

theorem succeeds_updatePayload_iff {f : t.payload.Value → t.payload.Value} :
    Succeeds (updatePayload handle f) s ↔
      ∃ payload, s.payload t (s.target handle.toReference) = .ok payload := by
  rw [exists_payload_iff]
  exact succeeds_edit_of_total_iff

theorem succeeds_clearRelated_iff (h : WellFormed s) :
    Succeeds (clearRelated handle relation) s ↔
      ∃ places, s.related t (s.target handle.toReference) relation = .ok places := by
  rw [exists_related_iff h, clearRelated, succeeds_ask_bind_iff]
  exact exists_congr fun r => and_congr_right fun _ => succeeds_edit_lists_iff

theorem succeeds_addRelated_iff (h : WellFormed s) :
    Succeeds (addRelated handle relation target) s ↔
      (∃ places, s.related t (s.target handle.toReference) relation = .ok places) ∧
        ∃ k, s.target target = some k ∧ s.Admits t.toMany[relation]? k := by
  rw [exists_related_iff h, addRelated, succeeds_ask_bind_iff, ← exists_and_right]
  refine exists_congr fun r => ?_
  rw [and_assoc]
  refine and_congr_right fun hr => ?_
  rw [getElem?_of_checkIndex hr, ← exists_checkTarget_iff, succeeds_get_bind_iff,
    succeeds_get_bind_iff, succeeds_ask_bind_iff]
  constructor
  · rintro ⟨k, hk, hedit⟩
    exact ⟨succeeds_edit_lists_iff.1 hedit, k, hk⟩
  · rintro ⟨hlists, k, hk⟩
    exact ⟨k, hk, succeeds_edit_lists_iff.2 hlists⟩

theorem succeeds_setSingle_iff :
    Succeeds (setSingle handle relation target) s ↔
      (∃ place, s.single t (s.target handle.toReference) relation = .ok place) ∧
        ∀ k, s.target target = some k → s.Admits t.toOne[relation]? k := by
  rw [exists_single_iff]
  rcases hindex : checkIndex relation t.toOne.length with e | r
  · refine iff_of_false ?_ (by rintro ⟨⟨r, ⟨⟩, -⟩, -⟩)
    rw [setSingle, hindex]
    rintro ⟨x, ⟨⟩⟩
  · simp only [Except.ok.injEq, exists_eq_left', getElem?_of_checkIndex hindex]
    unfold Succeeds
    rcases htarget : s.target target with _ | k
    -- an empty reference clears the relation
    · rw [setSingle_apply_of_none hindex htarget]
      exact succeeds_edit_of_total_iff.trans (by simp)
    · rw [setSingle_apply_of_some hindex htarget]
      have hadmits : (∃ k', s.checkTarget (some k) (t.toOne.get r).target = .ok k') ↔
          s.Admits (some (t.toOne.get r)) k := exists_checkTarget_iff.trans (by simp)
      rcases hcheck : s.checkTarget (some k) (t.toOne.get r).target with e | k'
      · refine iff_of_false (by rintro ⟨_, ⟨⟩⟩) ?_
        rintro ⟨-, hall⟩
        rcases hadmits.2 (hall k rfl) with ⟨k', hk'⟩
        cases hcheck.symm.trans hk'
      · refine succeeds_edit_of_total_iff.trans (and_iff_left ?_).symm
        rintro _ ⟨⟩
        exact hadmits.1 ⟨k', hcheck⟩

theorem succeeds_pushMember_iff {value : t.element.Value} :
    Succeeds (pushMember handle member value) s ↔
      ∃ values, s.members t (s.target handle.toReference) member = .ok values := by
  rw [exists_members_iff, pushMember, succeeds_ask_bind_iff]
  exact exists_congr fun m => and_congr_right fun _ => succeeds_edit_of_total_iff

theorem succeeds_setMembers_iff {values : List t.element.Value} :
    Succeeds (setMembers handle member values) s ↔
      ∃ values, s.members t (s.target handle.toReference) member = .ok values := by
  rw [exists_members_iff, setMembers, succeeds_ask_bind_iff]
  exact exists_congr fun m => and_congr_right fun _ => succeeds_edit_of_total_iff

end Object

/-! ## Edits of a collection -/

section Collection

variable {c : CollectionKey} {col : Collection}

theorem collectionAs_eq_ok_iff :
    s.collectionAs t c = .ok col ↔ s.collections.get? c = some col ∧ col.type = t := by
  refine ⟨collectionAs_eq_ok, ?_⟩
  rintro ⟨hcol, htype⟩
  refine bind_eq_ok_iff.2 ⟨col, collection_eq_ok_iff.2 hcol, ?_⟩
  rw [if_pos htype]
  rfl

theorem succeeds_create_iff {payload : t.payload.Value} :
    Succeeds (create t c payload) s ↔
      ∃ col, s.collections.get? c = some col ∧ col.type = t ∧ col.isSubset = false := by
  rw [create, succeeds_get_bind_iff, succeeds_ask_bind_iff]
  refine exists_congr fun col => ?_
  rw [collectionAs_eq_ok_iff, and_assoc]
  refine and_congr_right fun hcol => and_congr_right fun htype => ?_
  rcases hsubset : col.isSubset
  · exact iff_of_true ⟨_, rfl⟩ rfl
  · exact iff_of_false (by rintro ⟨_, ⟨⟩⟩) (by rintro ⟨⟩)

theorem succeeds_setSubset_iff {subset : Bool} :
    Succeeds (setSubset c subset) s ↔ ∃ col, s.collections.get? c = some col ∧
      (subset ≠ col.isSubset → col.isEmpty = true) := by
  rw [setSubset, succeeds_get_bind_iff, succeeds_ask_bind_iff]
  refine exists_congr fun col => ?_
  rw [collection_eq_ok_iff]
  refine and_congr_right fun hcol => ?_
  split
  · exact iff_of_true ⟨(), rfl⟩ fun hne => absurd ‹_› hne
  · rcases hempty : col.isEmpty
    · refine iff_of_false (by rintro ⟨_, ⟨⟩⟩) fun hall => ?_
      exact Bool.false_ne_true (hall ‹_›)
    · exact iff_of_true ⟨(), rfl⟩ fun _ => rfl

/-- A normal collection takes floating objects, a subset collection those that have an owner. -/
theorem succeeds_push_iff {handle : Handle t} :
    Succeeds (push c handle) s ↔ ∃ col, s.collections.get? c = some col ∧ col.type = t ∧
      (∃ payload, s.payload t (s.target handle.toReference) = .ok payload) ∧
      (s.handlesOfFloating? (s.target handle.toReference)).isSome = !col.isSubset := by
  rw [push, succeeds_get_bind_iff, succeeds_ask_bind_iff]
  refine exists_congr fun col => ?_
  rw [collectionAs_eq_ok_iff, and_assoc, succeeds_get_bind_iff, succeeds_get_bind_iff,
    succeeds_ask_bind_iff, exists_payload_iff]
  refine and_congr_right fun hcol => and_congr_right fun htype => ?_
  rcases hbody : s.bodyOf t (s.target handle.toReference) with e | ⟨k, body⟩
  · exact iff_of_false (by rintro ⟨_, ⟨⟩, -⟩) (by rintro ⟨⟨_, _, ⟨⟩⟩, -⟩)
  · rcases bodyOf_eq_ok hbody with ⟨htarget, hopen⟩
    rcases body_eq_ok_iff.1 hopen with ⟨tracking, ho, hreleased⟩
    have hobject : s.object k = .ok ⟨t, tracking, body⟩ := object_eq_ok_iff.2 ho
    simp only [Except.ok.injEq, exists_eq_left', succeeds_get_bind_iff, succeeds_ask_bind_iff,
      hobject, htarget]
    rw [and_iff_right (by simp), handlesOfFloating?, Option.bind_some, ho]
    -- only floating objects count their handles, and only these are taken up
    cases tracking with
    | released => exact absurd rfl hreleased
    | floating n =>
      rcases hsubset : col.isSubset
      · exact iff_of_true ⟨(), rfl⟩ rfl
      · exact iff_of_false (by rintro ⟨_, ⟨⟩⟩) (by rintro ⟨⟩)
    | owned owner position =>
      rcases hsubset : col.isSubset
      · exact iff_of_false (by rintro ⟨_, ⟨⟩⟩) (by rintro ⟨⟩)
      · exact iff_of_true ⟨(), rfl⟩ rfl

end Collection

/-- In a store that a run leads to, an edit succeeds exactly if it is allowed. -/
theorem Edit.succeeds_run_iff (h : WellFormed s) (edit : Edit) :
    Succeeds edit.run s ↔ edit.IsAllowed s := by
  cases edit with
  | setPayload handle payload => exact succeeds_updatePayload_iff
  | updatePayload handle f => exact succeeds_updatePayload_iff
  | addRelated handle relation target => exact succeeds_addRelated_iff h
  | clearRelated handle relation => exact succeeds_clearRelated_iff h
  | setSingle handle relation target => exact succeeds_setSingle_iff
  | pushMember handle member value => exact succeeds_pushMember_iff
  | setMembers handle member values => exact succeeds_setMembers_iff
  | create t c payload =>
    have hcreate : Succeeds (Store.create t c payload) s ↔ _ := succeeds_create_iff
    refine Iff.trans ?_ hcreate
    change (∃ x, ((Store.create t c payload >>= fun _ => pure ()) s).1 = .ok x) ↔ _
    rw [bind_apply, Succeeds]
    rcases Store.create t c payload s with ⟨e | handle, s'⟩
    · exact iff_of_false (by rintro ⟨_, ⟨⟩⟩) (by rintro ⟨_, ⟨⟩⟩)
    · exact iff_of_true ⟨(), rfl⟩ ⟨handle, rfl⟩
  | push c handle => exact succeeds_push_iff
  | setSubset c subset => exact succeeds_setSubset_iff

end EventModel.Store
