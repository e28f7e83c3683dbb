import EventModel.Proofs.Store.ReadBack
import EventModel.Proofs.Store.Reading
import EventModel.Proofs.Store.Runs

/-!
# Private links

The objects of a rebuilt collection share columns of links, into which each has windows. A store in
which they hold the same links in lists of their own cannot be told from it
(`windowsUnseen_of_resolved`): all answers are the same in every run. A change of one relation of
one object changes nothing else that is read, even if windows of several objects overlap.
-/

namespace EventModel

/-! ## Lists in the place of windows -/

/-- The values changed by a function of their keys. -/
def Arena.mapKeys {α : Type} (a : Arena α) (f : Nat → α → α) : Arena α :=
  ⟨a.slots.mapIdx fun key slot => slot.map (f key)⟩

theorem Arena.get?_mapKeys {α : Type} (a : Arena α) (f : Nat → α → α) (key : Nat) :
    (a.mapKeys f).get? key = (a.get? key).map (f key) := by
  simp only [get?, mapKeys, Array.getElem?_mapIdx]
  rcases a.slots[key]? with _ | _ | x <;> rfl

@[simp]
theorem Arena.next_mapKeys {α : Type} (a : Arena α) (f : Nat → α → α) :
    (a.mapKeys f).next = a.next := by
  simp [next, mapKeys]

namespace Store

variable {s s' : Store} {k : ObjectKey} {c : CollectionKey} {t : DataType} {col : Collection}
  {id : CollectionId}

/-- The object with lists of its own. -/
def withLists (o : Object) (lists : Vector (List ObjectKey) o.type.toMany.length) : Object :=
  { o with body := { o.body with toMany := .lists lists } }

/-- The object with lists of its own, copied from the columns. If they cannot be copied, it stays as
it is. -/
def unshareObject (s : Store) (k : ObjectKey) (o : Object) : Object :=
  match s.ownLists k o.body with
  | .ok lists => withLists o lists
  | .error _ => o

/-- The store in which every object of a collection holds its links in lists of its own. -/
def unshare (s : Store) (c : CollectionKey) : Store :=
  { s with objects := s.objects.mapKeys fun k o =>
      if o.owner? = some c then s.unshareObject k o else o }

/-- The links of an object can be copied once its collection is resolved, and what is copied are the
links that its windows select. -/
theorem ownLists_of_resolved (h : WellFormed s) (hcol : s.collections.get? c = some col)
    {many : Vector (List ObjectKey) col.type.toMany.length}
    (horigin : col.origin = some ⟨id, .resolved many⟩) {o : Object}
    (ho : s.objects.get? k = some o) {i : Nat} (htracking : o.tracking = .owned c i) :
    ∃ lists, s.ownLists k o.body = .ok lists ∧
      SameObject s.collections k o (withLists o lists) := by
  rcases o with ⟨t, tracking, ⟨payload, toMany, toOne, members⟩⟩
  cases htracking
  rcases hmany : toMany with lists | windows
  · -- an object that was changed before has its lists already
    exact ⟨lists, rfl, .refl _ _ _⟩
  · -- the invariant has the windows fit the columns of the owner, which is this collection
    subst hmany
    rcases h.owner k _ c i ho rfl with ⟨col', objects, hcol', hstorage, hi⟩
    cases hcol.symm.trans hcol'
    rcases h.windows k _ windows ho rfl with hreleased | ⟨d, j, col', origin, howned, hcol', hfit⟩
    · cases hreleased
    · cases howned
      cases hcol.symm.trans hcol'
      rcases hfit with ⟨horiginAs, hfits⟩
      rcases originAs_eq_some horiginAs with ⟨htype, hsome⟩
      dsimp only at htype
      subst htype
      cases hsome.symm.trans horigin
      have hserves : col.Serves i k many := ⟨⟨objects, hstorage, hi⟩, id, horiginAs⟩
      have hselects : Selects s.collections c i k windows
          (Vector.ofFn fun r => windows[r].segment many[r]) := by
        refine ⟨col, many, hcol, hserves, fun r => Window.slice_eq_ok_iff.2 ⟨hfits r, ?_⟩⟩
        simp
      exact ⟨_, tryOfFn_eq_ok_iff.2 (links_of_selects ho rfl rfl hselects),
        .same (.copied _ rfl rfl hselects)⟩

theorem alike_unshare (h : WellFormed s) (hcol : s.collections.get? c = some col)
    {many : Vector (List ObjectKey) col.type.toMany.length}
    (horigin : col.origin = some ⟨id, .resolved many⟩) : Alike s (s.unshare c) where
  collections := rfl
  frames := rfl
  handles := rfl
  serial := rfl
  next := Arena.next_mapKeys _ _
  objects k := by
    rw [unshare, Arena.get?_mapKeys]
    rcases ho : s.objects.get? k with _ | o
    · exact .none
    · refine .some ?_
      dsimp only
      by_cases howner : o.owner? = some c
      · rcases owner?_eq_some_iff.1 howner with ⟨i, htracking⟩
        rcases ownLists_of_resolved h hcol horigin ho htracking with ⟨lists, hlists, hsame⟩
        rw [if_pos howner]
        simp only [unshareObject, hlists]
        exact hsame
      · rw [if_neg howner]
        exact .refl _ _ o

/-! ## One relation of one object -/

/-- An object that is changed belongs where it did, and so do all others. -/
theorem tracking?_edited (k k' : ObjectKey) (new : Body t) :
    ((s.advanceOwner k).setBody k new).tracking? k' = s.tracking? k' := by
  rw [tracking?_setBody]
  exact tracking?_congr (by rw [advanceOwner_objects])

/-- The collection that owns a changed object counts the change, which nothing that is read of
objects depends on. -/
theorem map_get?_advanceOwner {α : Type} {f : Collection → α} (hf : ∀ col, f col.advance = f col)
    (k : ObjectKey) (c : CollectionKey) :
    ((s.advanceOwner k).collections.get? c).map f = (s.collections.get? c).map f := by
  rw [advanceOwner_get?]
  split
  · rw [Option.map_map]
    exact congrArg (Option.map · _) (funext hf)
  · rfl

theorem body_edited {old new : Body t} (hold : s.body t k = .ok old) :
    ((s.advanceOwner k).setBody k new).body t k = .ok new := by
  rcases body_eq_ok_iff.1 hold with ⟨tracking, ho, hreleased⟩
  rw [← advanceOwner_objects s k] at ho
  exact body_eq_ok_iff.2 ⟨tracking, setBody_get?_self ho new, hreleased⟩

theorem bodiesShowSame_edited {old new : Body t} {r : Fin t.toMany.length}
    (hold : s.body t k = .ok old)
    (hnew : ShowsSame s ((s.advanceOwner k).setBody k new) (some (k, r.val)) k old new) :
    BodiesShowSame (some (k, r.val)) s ((s.advanceOwner k).setBody k new) where
  existsObject := funext fun k' => existsObject_congr (tracking?_edited k k' new)
    (by simp) fun c => map_get?_advanceOwner (fun _ => rfl) k c
  bodies k' u := by
    have horigin : ((s.advanceOwner k).setBody k new).originOf u k' = s.originOf u k' :=
      originOf_congr (tracking?_edited k k' new) fun c => map_get?_advanceOwner (fun _ => rfl) k c
    rcases body_eq_ok_iff.1 hold with ⟨tracking, ho, -⟩
    by_cases heq : k = k'
    · subst heq
      have ho' : (s.advanceOwner k).objects.get? k = some ⟨t, tracking, old⟩ := by
        rw [advanceOwner_objects, ho]
      exact parallel_body (R := ShowsSame s _ _ k) ho (setBody_get?_self ho' new)
        (fun _ => hnew) u
    · have hbody : ((s.advanceOwner k).setBody k new).body u k' = s.body u k' := by
        apply body_congr
        rw [setBody_get?_ne heq, advanceOwner_objects]
      rw [hbody]
      rcases s.body u k' with e | body
      · exact .error e
      · exact .ok (.refl horigin body)

theorem bodiesShowSame_advanceOwner (s : Store) (k : ObjectKey) :
    BodiesShowSame none s (s.advanceOwner k) where
  existsObject := funext fun k' => existsObject_congr
    (tracking?_congr (by rw [advanceOwner_objects])) (by simp)
    fun c => map_get?_advanceOwner (fun _ => rfl) k c
  bodies k' u := by
    have horigin : (s.advanceOwner k).originOf u k' = s.originOf u k' :=
      originOf_congr (tracking?_congr (by rw [advanceOwner_objects]))
        fun c => map_get?_advanceOwner (fun _ => rfl) k c
    have hbody : (s.advanceOwner k).body u k' = s.body u k' :=
      body_congr (by rw [advanceOwner_objects]) u
    rw [hbody]
    rcases s.body u k' with e | body
    · exact .error e
    · exact .ok (.refl horigin body)

theorem links_of_ownLists {body : Body t} {lists : Vector (List ObjectKey) t.toMany.length}
    (h : s.ownLists k body = .ok lists) (r : Fin t.toMany.length) :
    s.links k body r = .ok lists[r] := by
  unfold ownLists at h
  rcases hmany : body.toMany with lists' | windows
  · simp only [hmany] at h
    simp only [links, hmany, Except.ok.inj h]
  · simp only [hmany] at h
    exact tryOfFn_apply h r

/-- An operation changes one to-many relation of the object behind a handle, and nothing else that
is read of objects. If it fails, nothing that is read changes. -/
structure ChangesRelation (s : Store) (handle : MutableHandle t) (relation : Nat)
    (change : List (Option ObjectKey) → List (Option ObjectKey))
    (result : Except Error Unit × Store) : Prop where
  failed : ∀ e, result.1 = .error e → ReadsSame none s result.2
  changed : result.1 = .ok () → ∃ k places, s.target handle.toReference = some k ∧
    s.related t (some k) relation = .ok places ∧
    result.2.related t (some k) relation = .ok (change places) ∧
    ReadsSame (some (k, relation)) s result.2

theorem ReadsSame.refl (except : Option (ObjectKey × Nat)) (s : Store) : ReadsSame except s s :=
  ⟨rfl, rfl, rfl, rfl, fun _ _ _ _ => rfl, fun _ _ _ _ => rfl⟩

/-- An operation that is refused before it changes anything. -/
theorem ChangesRelation.of_error {handle : MutableHandle t} {relation : Nat}
    {change : List (Option ObjectKey) → List (Option ObjectKey)} {e : Error}
    (h : ReadsSame none s s') : ChangesRelation s handle relation change (.error e, s') where
  failed _ _ := h
  changed hok := by cases hok

/-- All lists of the object are copied before one of them is replaced, so the columns and the
windows of other objects stay as they are. -/
theorem changesRelation_edit (handle : MutableHandle t) (r : Fin t.toMany.length)
    {g : List ObjectKey → List ObjectKey}
    {change : List (Option ObjectKey) → List (Option ObjectKey)}
    (hchange : ∀ ks, (g ks).map s.placeOf = change (ks.map s.placeOf)) :
    ChangesRelation s handle r change
      (edit handle (fun s own body => do
        let lists ← s.ownLists own body
        return { body with toMany := .lists (setAt lists r (g lists[r])) }) s) := by
  unfold edit
  rcases hbody : s.bodyOf t (s.target handle.toReference) with e | ⟨k, body⟩
  · exact .of_error (.refl _ s)
  · rcases bodyOf_eq_ok hbody with ⟨htarget, hbody⟩
    dsimp only
    rcases hlists : s.ownLists k body with e | lists
    · -- links that wait for resolution cannot be copied; the access alone is counted
      exact .of_error (bodiesShowSame_advanceOwner s k).readsSame
    · have hlinks := links_of_ownLists hlists
      let new : Body t := { body with toMany := .lists (setAt lists r (g lists[r])) }
      have hshows : ShowsSame s ((s.advanceOwner k).setBody k new) (some (k, r.val)) k body
          new := by
        refine .of_links rfl rfl rfl (fun r' _ => hlinks r') fun r' hr' => ?_
        have hne : r ≠ r' := fun heq => hr' (by rw [heq])
        change Except.ok (setAt lists r (g lists[r]))[r'] = _
        rw [getElem_setAt, if_neg hne]
      have hsame := bodiesShowSame_edited hbody hshows
      -- the edit makes no object and drops none
      have hplace : ((s.advanceOwner k).setBody k new).placeOf = s.placeOf := by
        funext k'
        rw [placeOf, placeOf, hsame.existsObject]
      have hnew : ((s.advanceOwner k).setBody k new).links k new r = .ok (g lists[r]) := by
        change Except.ok (setAt lists r (g lists[r]))[r] = _
        rw [getElem_setAt, if_pos rfl]
      constructor
      · intro e he
        cases he
      intro _
      refine ⟨k, lists[r].map s.placeOf, htarget, ?_, ?_, ?_⟩
      · rw [related_eq_map hbody, hlinks]
        rfl
      · change ((s.advanceOwner k).setBody k new).related t (some k) r = _
        rw [related_eq_map (body_edited hbody), hnew, hplace, ← hchange]
        rfl
      · exact hsame.readsSame

theorem changesRelation_clearRelated (handle : MutableHandle t) (relation : Nat) :
    ChangesRelation s handle relation (fun _ => []) (clearRelated handle relation s) := by
  rw [clearRelated, bind_apply, ask_apply]
  rcases hindex : checkIndex relation t.toMany.length with e | r
  · exact .of_error (.refl _ s)
  · cases checkIndex_eq_ok hindex
    exact changesRelation_edit (g := fun _ => []) handle r fun _ => rfl

theorem changesRelation_addRelated (h : WellFormed s) (handle : MutableHandle t) (relation : Nat)
    (target : Reference) : ChangesRelation s handle relation (· ++ [s.target target])
      (addRelated handle relation target s) := by
  rw [addRelated, bind_apply, ask_apply]
  rcases hindex : checkIndex relation t.toMany.length with e | r
  · exact .of_error (.refl _ s)
  · cases checkIndex_eq_ok hindex
    dsimp only
    rw [get_bind_apply, get_bind_apply, bind_apply, ask_apply]
    rcases hcheck : s.checkTarget (s.target target) (t.toMany.get r).target with e | k'
    · exact .of_error (.refl _ s)
    · have htarget := (checkTarget_eq_ok hcheck).1
      have hplace : s.placeOf k' = s.target target := by
        rw [htarget, placeOf, if_pos (existsObject_of_target h htarget)]
      refine changesRelation_edit (g := (· ++ [k'])) handle r fun ks => ?_
      rw [List.map_append, List.map_singleton, hplace]

/-! ## Windows and private lists -/

/-- Nothing tells the windows of a collection from private lists of the same links. -/
structure WindowsUnseen (s : Store) (c : CollectionKey) : Prop where
  /-- Every object of the collection has a list of its own for each relation in `unshare`, with the
  links that it had before; the other objects are the same. -/
  lists : ∀ k o, s.objects.get? k = some o → o.owner? = some c →
    ∃ lists, s.ownLists k o.body = .ok lists ∧
      (s.unshare c).objects.get? k = some (withLists o lists)
  others : ∀ k o, s.objects.get? k = some o → o.owner? ≠ some c →
    (s.unshare c).objects.get? k = some o
  answers : ∀ run : List ((α : Type) × StateM Store α), (∀ step ∈ run, Operation step.2) →
    answers run (s.unshare c) = answers run s
  addRelated : ∀ (t : DataType) (handle : MutableHandle t) relation target,
    ChangesRelation s handle relation (· ++ [s.target target]) (addRelated handle relation target s)
  clearRelated : ∀ (t : DataType) (handle : MutableHandle t) relation,
    ChangesRelation s handle relation (fun _ => []) (clearRelated handle relation s)

/-- A collection that was rebuilt and resolved, whether its windows were verified or not, cannot be
told from one whose objects hold their links in lists of their own. -/
theorem windowsUnseen_of_resolved (h : Reachable s) (hcol : s.collections.get? c = some col)
    {many : Vector (List ObjectKey) col.type.toMany.length}
    (horigin : col.origin = some ⟨id, .resolved many⟩) : WindowsUnseen s c where
  lists k o ho howner := by
    rcases owner?_eq_some_iff.1 howner with ⟨i, htracking⟩
    rcases ownLists_of_resolved h.wellFormed hcol horigin ho htracking with ⟨lists, hlists, -⟩
    refine ⟨lists, hlists, ?_⟩
    rw [unshare, Arena.get?_mapKeys, ho, Option.map_some, if_pos howner, unshareObject, hlists]
  others k o ho howner := by
    rw [unshare, Arena.get?_mapKeys, ho, Option.map_some, if_neg howner]
  answers run hrun := (alike_unshare h.wellFormed hcol horigin).answers_eq hrun
  addRelated _ handle relation target :=
    changesRelation_addRelated h.wellFormed handle relation target
  clearRelated _ handle relation := changesRelation_clearRelated handle relation

/-! ## Windows that overlap -/

/-- Two nodes with windows that share the second of two links, which no writer would make. -/
def overlappingBuffers : Buffers where
  type := "Node"
  subset := false
  records := .encode nodeType.record [((5 : UInt8), #v[⟨0, 2⟩]), ((6 : UInt8), #v[⟨1, 2⟩])]
  relations := [.encode .objectId [⟨0, ⟨7⟩⟩, ⟨1, ⟨7⟩⟩]]
  members := []

/-- The two nodes without verification, resolved, with a handle to the first of them. -/
def overlappingStore : Store :=
  let rebuilt := (rebuild nodeType overlappingBuffers ⟨7⟩ { verify := false } .empty).2
  (getMutable nodeType 0 0 (resolveAll [0] rebuilt).2).2

theorem reachable_overlappingStore : Reachable overlappingStore := by
  have hrebuilt := Reachable.empty.step
    (.rebuild nodeType overlappingBuffers ⟨7⟩ { verify := false })
  exact (hrebuilt.step (.resolveAll [0])).step (.getMutable nodeType 0 0)

def overlappingCollection : Collection :=
  (overlappingStore.collections.get? 0).get (by decide +kernel)

def overlappingColumns : Vector (List ObjectKey) overlappingCollection.type.toMany.length :=
  match overlappingCollection.origin with
  | some ⟨_, .resolved many⟩ => many
  | _ => Vector.replicate _ []

/-- Adding to the relation of the first node and clearing it leave the second one its link, although
both windows select it. -/
theorem windowsUnseen_of_resolved_overlappingStore :
    overlappingCollection.origin = some ⟨⟨7⟩, .resolved overlappingColumns⟩ ∧
      WindowsUnseen overlappingStore 0 ∧
      overlappingStore.related nodeType (some 0) 0 = .ok [some 0, some 1] ∧
      overlappingStore.related nodeType (some 1) 0 = .ok [some 1] ∧
      (addRelated (t := nodeType) ⟨⟨⟨0⟩⟩⟩ 0 ⟨0⟩ overlappingStore).1 = .ok () ∧
      (addRelated (t := nodeType) ⟨⟨⟨0⟩⟩⟩ 0 ⟨0⟩ overlappingStore).2.related nodeType (some 0) 0 =
        .ok [some 0, some 1, some 0] ∧
      (addRelated (t := nodeType) ⟨⟨⟨0⟩⟩⟩ 0 ⟨0⟩ overlappingStore).2.related nodeType (some 1) 0 =
        .ok [some 1] ∧
      (clearRelated (t := nodeType) ⟨⟨⟨0⟩⟩⟩ 0 overlappingStore).2.related nodeType (some 0) 0 =
        .ok [] ∧
      (clearRelated (t := nodeType) ⟨⟨⟨0⟩⟩⟩ 0 overlappingStore).2.related nodeType (some 1) 0 =
        .ok [some 1] := by
  have horigin : overlappingCollection.origin = some ⟨⟨7⟩, .resolved overlappingColumns⟩ := by
    decide +kernel
  refine ⟨horigin, windowsUnseen_of_resolved reachable_overlappingStore
    (Option.some_get _).symm horigin, ?_⟩
  decide +kernel

end Store
end EventModel
