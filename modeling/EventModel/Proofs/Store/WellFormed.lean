import EventModel.Proofs.Store.Change

/-!
# Well-formed stores

What holds between the objects, the collections and the frames of a store in every run: an owned
object stands at its position in the collection that owns it, links lead to objects of the declared
types, windows lie within their columns, and a frame knows the numbers of the collections it holds.
-/

namespace EventModel

namespace Store

/-- The object exists, has type `t`, and belongs or belonged to a collection. -/
def IsPlaced (s : Store) (t : DataType) (k : ObjectKey) : Prop :=
  ∃ o, s.objects.get? k = some o ∧ o.type = t ∧ ∀ n, o.tracking ≠ .floating n

/-- The windows select from the columns of the collection that owns the object. -/
def WindowsFit (s : Store) (o : Object)
    (windows : Vector Window o.type.toMany.length) : Prop :=
  ∃ c i col origin, o.tracking = .owned c i ∧ s.collections.get? c = some col ∧
    col.originAs o.type = some origin ∧
    ∀ r : Fin o.type.toMany.length, windows[r].Fits (origin.columns.length r)

/-- The invariant of objects, collections and handles. -/
structure ObjectsWellFormed (s : Store) : Prop where
  /-- A collection lists an object at the position that the object has in it. -/
  listed : ∀ c col objects i k, s.collections.get? c = some col → col.storage = .owned objects →
    objects[i]? = some k →
      ∃ o, s.objects.get? k = some o ∧ o.type = col.type ∧ o.tracking = .owned c i
  /-- The owner of an object lists it. -/
  owner : ∀ k o c i, s.objects.get? k = some o → o.tracking = .owned c i →
    ∃ col objects, s.collections.get? c = some col ∧ col.storage = .owned objects ∧
      objects[i]? = some k
  /-- A place of a subset collection never leads to a floating object. -/
  slots : ∀ c col slots k, s.collections.get? c = some col → col.storage = .subset slots →
    .linked k ∈ slots → s.IsPlaced col.type k
  /-- The links of an object have the declared types. -/
  links : ∀ k o, s.objects.get? k = some o → s.LinksTyped o.body
  /-- The links in the columns of a collection have the declared types. -/
  columns : ∀ c col id many, s.collections.get? c = some col →
    col.origin = some ⟨id, .resolved many⟩ → ∀ r : Fin col.type.toMany.length, ∀ k ∈ many[r],
      s.typeName? (some k) = some (col.type.toMany.get r).target
  /-- An object that was not released has windows only into columns that its owner keeps. -/
  windows : ∀ k o windows, s.objects.get? k = some o → o.body.toMany = .windows windows →
    o.tracking = .released ∨ s.WindowsFit o windows
  /-- Handles point at objects that were made. -/
  handles : ∀ h k, s.handles.get? h = some (some k) → ∃ o, s.objects.get? k = some o

/-- The invariant of frames. -/
structure FramesWellFormed (s : Store) : Prop where
  /-- A frame holds collections that exist, under the numbers that its id table has for them. -/
  held : ∀ f frame name c, s.frames.get? f = some frame → (name, c) ∈ frame.slots →
    ∃ col, s.collections.get? c = some col ∧ frame.ids.id? name = some col.id
  /-- Names and numbers are found where the collections stand. -/
  indexed : ∀ f frame, s.frames.get? f = some frame → frame.IsIndexed
  ids : ∀ f frame, s.frames.get? f = some frame → frame.ids.Built
  /-- A collection is held by one frame at most, and under one name. -/
  holder : ∀ f frame name f' frame' name' c, s.frames.get? f = some frame →
    s.frames.get? f' = some frame' → (name, c) ∈ frame.slots → (name', c) ∈ frame'.slots →
      f = f' ∧ name = name'

theorem FramesWellFormed.names {s : Store} (h : FramesWellFormed s) (f : FrameKey) (frame : Frame)
    (hframe : s.frames.get? f = some frame) : frame.names.Nodup :=
  (h.indexed f frame hframe).nodup_names

/-- The invariant of all runs. -/
structure WellFormed (s : Store) : Prop extends ObjectsWellFormed s, FramesWellFormed s

theorem wellFormed_empty : WellFormed .empty := by
  constructor <;> constructor <;> simp [Store.empty, Arena.get?]

/-! ## Typed objects stay -/

theorem typeName?_eq_some_iff {s : Store} {k : ObjectKey} {name : String} :
    s.typeName? (some k) = some name ↔ ∃ o, s.objects.get? k = some o ∧ o.type.name = name := by
  simp [typeName?]

/-- Every object of `s` is one of `s'` and has the same type there. -/
def Retains (s s' : Store) : Prop :=
  ∀ k o, s.objects.get? k = some o → ∃ o', s'.objects.get? k = some o' ∧ o'.type = o.type

theorem Retains.typeName? {s s' : Store} (h : Retains s s') {k : ObjectKey} {name : String}
    (hk : s.typeName? (some k) = some name) : s'.typeName? (some k) = some name := by
  obtain ⟨o, ho, hname⟩ := typeName?_eq_some_iff.1 hk
  obtain ⟨o', ho', htype⟩ := h k o ho
  exact typeName?_eq_some_iff.2 ⟨o', ho', by rw [htype, hname]⟩

theorem Retains.linksTyped {s s' : Store} (h : Retains s s') {t : DataType} {body : Body t}
    (hbody : s.LinksTyped body) : s'.LinksTyped body where
  toMany lists hlists r k hk := h.typeName? (hbody.toMany lists hlists r k hk)
  toOne r k hk := h.typeName? (hbody.toOne r k hk)

theorem Retains.refl (s : Store) : Retains s s :=
  fun _ o ho => ⟨o, ho, rfl⟩

theorem Retains.trans {s s' s'' : Store} (h : Retains s s') (h' : Retains s' s'') :
    Retains s s'' := by
  intro k o ho
  obtain ⟨o', ho', htype⟩ := h k o ho
  obtain ⟨o'', ho'', htype'⟩ := h' k o' ho'
  exact ⟨o'', ho'', htype'.trans htype⟩

/-! ## One collection and one object

The invariant is shown for each collection and for each object by itself. What a change does not
concern is carried over: a collection if its objects are still there, an object if its owner still
lists it and has columns of the same lengths.
-/

/-- The invariant as far as it is about one collection. -/
structure CollectionFits (s : Store) (c : CollectionKey) (col : Collection) : Prop where
  listed : ∀ objects i k, col.storage = .owned objects → objects[i]? = some k →
    ∃ o, s.objects.get? k = some o ∧ o.type = col.type ∧ o.tracking = .owned c i
  slots : ∀ slots k, col.storage = .subset slots → .linked k ∈ slots → s.IsPlaced col.type k
  columns : ∀ id many, col.origin = some ⟨id, .resolved many⟩ →
    ∀ r : Fin col.type.toMany.length, ∀ k ∈ many[r],
      s.typeName? (some k) = some (col.type.toMany.get r).target

/-- The invariant as far as it is about one object. -/
structure ObjectFits (s : Store) (k : ObjectKey) (o : Object) : Prop where
  owner : ∀ c i, o.tracking = .owned c i → ∃ col objects, s.collections.get? c = some col ∧
    col.storage = .owned objects ∧ objects[i]? = some k
  links : s.LinksTyped o.body
  windows : ∀ windows, o.body.toMany = .windows windows →
    o.tracking = .released ∨ s.WindowsFit o windows

namespace ObjectsWellFormed

variable {s : Store} {c : CollectionKey} {col : Collection} {k : ObjectKey} {o : Object}

theorem collectionFits (h : ObjectsWellFormed s) (hcol : s.collections.get? c = some col) :
    s.CollectionFits c col where
  listed objects i k := h.listed c col objects i k hcol
  slots slots k := h.slots c col slots k hcol
  columns id many := h.columns c col id many hcol

theorem objectFits (h : ObjectsWellFormed s) (ho : s.objects.get? k = some o) :
    s.ObjectFits k o where
  owner c i := h.owner k o c i ho
  links := h.links k o ho
  windows windows := h.windows k o windows ho

theorem of_parts (hcollections : ∀ c col, s.collections.get? c = some col → s.CollectionFits c col)
    (hobjects : ∀ k o, s.objects.get? k = some o → s.ObjectFits k o)
    (hhandles : ∀ h k, s.handles.get? h = some (some k) → ∃ o, s.objects.get? k = some o) :
    ObjectsWellFormed s where
  listed c col objects i k hcol := (hcollections c col hcol).listed objects i k
  owner k o c i ho := (hobjects k o ho).owner c i
  slots c col slots k hcol := (hcollections c col hcol).slots slots k
  links k o ho := (hobjects k o ho).links
  columns c col id many hcol := (hcollections c col hcol).columns id many
  windows k o windows ho := (hobjects k o ho).windows windows
  handles := hhandles

end ObjectsWellFormed

/-- The objects that a collection owns are there, and stand where they stood. -/
def KeepsOwned (c : CollectionKey) (s s' : Store) : Prop :=
  ∀ k o i, s.objects.get? k = some o → o.tracking = .owned c i →
    ∃ o', s'.objects.get? k = some o' ∧ o'.type = o.type ∧ o'.tracking = o.tracking

theorem CollectionFits.carry {s s' : Store} {c : CollectionKey} {col : Collection}
    (h : s.CollectionFits c col) (hretains : Retains s s')
    (hplaced : ∀ t k, s.IsPlaced t k → s'.IsPlaced t k) (howned : KeepsOwned c s s') :
    s'.CollectionFits c col where
  listed objects i k hstorage hi := by
    obtain ⟨o, ho, htype, htracking⟩ := h.listed objects i k hstorage hi
    obtain ⟨o', ho', htype', htracking'⟩ := howned k o i ho htracking
    exact ⟨o', ho', htype'.trans htype, htracking'.trans htracking⟩
  slots slots k hstorage hk := hplaced _ k (h.slots slots k hstorage hk)
  columns id many horigin r k hk := hretains.typeName? (h.columns id many horigin r k hk)

/-- A collection without objects and places, and without columns. -/
theorem collectionFits_of_empty {s : Store} {c : CollectionKey} {col : Collection} {subset : Bool}
    (hstorage : col.storage = .empty subset) (horigin : col.origin = none) :
    s.CollectionFits c col where
  listed objects i k howned hi := by
    cases subset
    · cases hstorage.symm.trans howned
      simp at hi
    · cases hstorage.symm.trans howned
  slots slots k hplaces hk := by
    cases subset
    · cases hstorage.symm.trans hplaces
    · cases hstorage.symm.trans hplaces
      simp at hk
  columns id many hresolved := by
    rw [horigin] at hresolved
    cases hresolved

/-- Objects that a collection has taken up once stay as they are. -/
def KeepsPlaced (s s' : Store) : Prop :=
  ∀ k o, s.objects.get? k = some o → (∀ n, o.tracking ≠ .floating n) →
    s'.objects.get? k = some o

namespace KeepsPlaced

variable {s s' : Store}

theorem of_extends (h : ∀ k o, s.objects.get? k = some o → s'.objects.get? k = some o) :
    KeepsPlaced s s' :=
  fun k o ho _ => h k o ho

theorem isPlaced (h : KeepsPlaced s s') {t : DataType} {k : ObjectKey} (hk : s.IsPlaced t k) :
    s'.IsPlaced t k := by
  obtain ⟨o, ho, htype, hnot⟩ := hk
  exact ⟨o, h k o ho hnot, htype, hnot⟩

theorem keepsOwned (h : KeepsPlaced s s') (c : CollectionKey) : KeepsOwned c s s' :=
  fun k o _ ho htracking => ⟨o, h k o ho (by simp [htracking]), rfl, rfl⟩

theorem collectionFits (h : KeepsPlaced s s') (hretains : Retains s s') {c : CollectionKey}
    {col : Collection} (hfits : s.CollectionFits c col) : s'.CollectionFits c col :=
  hfits.carry hretains (fun _ _ => h.isPlaced) (h.keepsOwned c)

end KeepsPlaced

/-- A store whose objects are still there is well-formed if its collections and its objects are. -/
theorem ObjectsWellFormed.alter {s s' : Store} (h : ObjectsWellFormed s) (hretains : Retains s s')
    (hhandles : s'.handles = s.handles)
    (hcollections : ∀ c col, s'.collections.get? c = some col → s'.CollectionFits c col)
    (hobjects : ∀ k o, s'.objects.get? k = some o → s'.ObjectFits k o) : ObjectsWellFormed s' := by
  refine .of_parts hcollections hobjects fun key k hk => ?_
  rw [hhandles] at hk
  obtain ⟨o, ho⟩ := h.handles key k hk
  obtain ⟨o', ho', -⟩ := hretains k o ho
  exact ⟨o', ho'⟩

end Store

/-- The second collection lists what the first one lists, and its columns are as long. -/
structure Collection.Continues (col col' : Collection) : Prop where
  listed : ∀ objects, col.storage = .owned objects →
    ∃ objects', col'.storage = .owned objects' ∧
      ∀ (i : Nat) (k : ObjectKey), objects[i]? = some k → objects'[i]? = some k
  columns : ∀ (t : DataType) (origin : Origin t), col.originAs t = some origin →
    ∃ origin' : Origin t, col'.originAs t = some origin' ∧
      ∀ r, origin'.columns.length r = origin.columns.length r

theorem Collection.Continues.refl (col : Collection) : col.Continues col :=
  ⟨fun objects h => ⟨objects, h, fun _ _ hi => hi⟩, fun _ origin h => ⟨origin, h, fun _ => rfl⟩⟩

namespace Store.ObjectFits

variable {s s' : Store} {k : ObjectKey} {o : Object} {n : UInt32}

theorem carry (h : s.ObjectFits k o) (hretains : Retains s s')
    (hcontinues : ∀ c i col, o.tracking = .owned c i → s.collections.get? c = some col →
      ∃ col', s'.collections.get? c = some col' ∧ col.Continues col') : s'.ObjectFits k o where
  owner c i htracking := by
    obtain ⟨col, objects, hcol, hstorage, hi⟩ := h.owner c i htracking
    obtain ⟨col', hcol', hcont⟩ := hcontinues c i col htracking hcol
    obtain ⟨objects', hstorage', hkept⟩ := hcont.listed objects hstorage
    exact ⟨col', objects', hcol', hstorage', hkept i k hi⟩
  links := hretains.linksTyped h.links
  windows windows hwindows := by
    rcases h.windows windows hwindows with hreleased | hfit
    · exact .inl hreleased
    · obtain ⟨c, i, col, origin, htracking, hcol, horigin, hall⟩ := hfit
      obtain ⟨col', hcol', hcont⟩ := hcontinues c i col htracking hcol
      obtain ⟨origin', horigin', hlength⟩ := hcont.columns _ origin horigin
      refine .inr ⟨c, i, col', origin', htracking, hcol', horigin', fun r => ?_⟩
      rw [hlength r]
      exact hall r

/-- Windows are of objects that were rebuilt, never of floating ones. -/
theorem not_windows_of_floating (h : s.ObjectFits k o) (hfloating : o.tracking = .floating n)
    (windows : Vector Window o.type.toMany.length) : o.body.toMany ≠ .windows windows := by
  intro hwindows
  rcases h.windows windows hwindows with hreleased | ⟨c, i, -, -, htracking, -⟩
  · cases hfloating.symm.trans hreleased
  · cases hfloating.symm.trans htracking

/-- A floating object may be taken up by a collection that lists it. -/
theorem move (h : s.ObjectFits k o) (hretains : Retains s s') (hfloating : o.tracking = .floating n)
    {tracking : Tracking}
    (hlisted : ∀ c i, tracking = .owned c i → ∃ col objects, s'.collections.get? c = some col ∧
      col.storage = .owned objects ∧ objects[i]? = some k) :
    s'.ObjectFits k { o with tracking } where
  owner := hlisted
  links := hretains.linksTyped h.links
  windows windows hwindows := absurd hwindows (h.not_windows_of_floating hfloating windows)

end Store.ObjectFits

/-! ## Changes that no reader sees -/

/-- The object without the number of its handles. -/
def Object.settled (o : Object) : Object :=
  match o.tracking with
  | .floating _ => { o with tracking := .floating 0 }
  | _ => o

namespace Object

theorem settled_of_floating {o : Object} {n : UInt32} (h : o.tracking = .floating n) :
    o.settled = { o with tracking := .floating 0 } := by
  simp [settled, h]

theorem settled_of_not_floating {o : Object} (h : ∀ n, o.tracking ≠ .floating n) :
    o.settled = o := by
  unfold settled
  split
  · rename_i n hn
    exact absurd hn (h n)
  · rfl

@[simp]
theorem settled_type (o : Object) : o.settled.type = o.type := by
  unfold settled
  split <;> rfl

/-- Objects that differ in the number of handles only. -/
theorem eq_of_settled_eq {o o' : Object} (h : o'.settled = o.settled) :
    o' = { o with tracking := o'.tracking } := by
  have hpart : ∀ x : Object, { x.settled with tracking := o'.tracking } =
      ({ x with tracking := o'.tracking } : Object) := by
    intro x
    unfold settled
    split <;> rfl
  calc
    o' = { o' with tracking := o'.tracking } := rfl
    _ = { o'.settled with tracking := o'.tracking } := (hpart o').symm
    _ = { o.settled with tracking := o'.tracking } := by rw [h]
    _ = { o with tracking := o'.tracking } := hpart o

theorem isFloating_of_settled_eq {o o' : Object} (h : o'.settled = o.settled) {n : UInt32}
    (ho : o.tracking = .floating n) : ∃ m, o'.tracking = .floating m := by
  by_contra hnot
  rw [settled_of_not_floating fun m hm => hnot ⟨m, hm⟩, settled_of_floating ho] at h
  exact hnot ⟨0, by rw [h]⟩

theorem eq_of_settled_eq_of_not_floating {o o' : Object} (h : o'.settled = o.settled)
    (ho : ∀ n, o.tracking ≠ .floating n) : o' = o := by
  have ho' : ∀ n, o'.tracking ≠ .floating n := by
    intro n hn
    obtain ⟨m, hm⟩ := isFloating_of_settled_eq h.symm hn
    exact ho m hm
  rwa [settled_of_not_floating ho', settled_of_not_floating ho] at h

@[simp]
theorem settled_acquire (o : Object) : o.acquire.settled = o.settled := by
  unfold acquire
  split
  · rename_i n hn
    rw [settled_of_floating hn, settled_of_floating rfl]
  · rfl

@[simp]
theorem settled_letGo (o : Object) : o.letGo.settled = o.settled := by
  unfold letGo
  split
  · rename_i n hn
    rw [settled_of_floating hn, settled_of_floating rfl]
  · rfl

/-- A handle that is counted and given back changes nothing, unless the count starts again from zero
in between. -/
theorem letGo_acquire {o : Object} (h : ∀ n, o.tracking = .floating n → n + 1 ≠ 0) :
    o.acquire.letGo = o := by
  rcases o with ⟨t, n | ⟨c, i⟩ | _, body⟩
  · simp [acquire, letGo, h n rfl]
  · rfl
  · rfl

end Object

/-- The collection without its number, its prepared buffers and the count of its changes. -/
def Collection.content (col : Collection) : Collection :=
  { col with id := .invalid, generation := 0, prepared := none }

theorem Collection.eq_of_content_eq {col col' : Collection} (h : col'.content = col.content) :
    col' =
      { col with id := col'.id, generation := col'.generation, prepared := col'.prepared } := by
  have hpart : ∀ x : Collection, { x.content with
      id := col'.id, generation := col'.generation, prepared := col'.prepared } =
      { x with id := col'.id, generation := col'.generation, prepared := col'.prepared } :=
    fun _ => rfl
  rw [← hpart col, ← h, hpart col']

namespace Store

/-- Objects differ at most in the number of their handles, and collections in their numbers, their
prepared buffers and their counts of changes. -/
structure Quiet (s s' : Store) : Prop where
  objects : ∀ k, (s'.objects.get? k).map Object.settled = (s.objects.get? k).map Object.settled
  collections : ∀ c, (s'.collections.get? c).map Collection.content =
    (s.collections.get? c).map Collection.content

variable {s s' : Store}

theorem Quiet.symm (q : Quiet s s') : Quiet s' s :=
  ⟨fun k => (q.objects k).symm, fun c => (q.collections c).symm⟩

theorem Quiet.trans {s'' : Store} (q : Quiet s s') (q' : Quiet s' s'') : Quiet s s'' :=
  ⟨fun k => (q'.objects k).trans (q.objects k), fun c => (q'.collections c).trans (q.collections c)⟩

theorem Quiet.object (q : Quiet s s') {k : ObjectKey} {o' : Object}
    (h : s'.objects.get? k = some o') :
    ∃ o, s.objects.get? k = some o ∧ o'.settled = o.settled := by
  have heq := q.objects k
  rw [h] at heq
  obtain ⟨o, ho, hsettled⟩ := Option.map_eq_some_iff.1 heq.symm
  exact ⟨o, ho, hsettled.symm⟩

theorem Quiet.get?_eq_none (q : Quiet s s') {k : ObjectKey} (h : s.objects.get? k = none) :
    s'.objects.get? k = none := by
  have heq := q.objects k
  rwa [h, Option.map_none, Option.map_eq_none_iff] at heq

theorem Quiet.collection (q : Quiet s s') {c : CollectionKey} {col' : Collection}
    (h : s'.collections.get? c = some col') :
    ∃ col, s.collections.get? c = some col ∧ col' =
      { col with id := col'.id, generation := col'.generation, prepared := col'.prepared } := by
  have heq := q.collections c
  rw [h] at heq
  obtain ⟨col, hcol, hcontent⟩ := Option.map_eq_some_iff.1 heq.symm
  exact ⟨col, hcol, Collection.eq_of_content_eq hcontent.symm⟩

theorem Quiet.retains (q : Quiet s s') : Retains s s' := by
  intro k o ho
  obtain ⟨o', ho', hsettled⟩ := q.symm.object ho
  exact ⟨o', ho', by rw [← Object.settled_type o', ← hsettled, Object.settled_type]⟩

theorem Quiet.object_of_not_floating (q : Quiet s s') {k : ObjectKey} {o : Object}
    (h : s.objects.get? k = some o) (hnot : ∀ n, o.tracking ≠ .floating n) :
    s'.objects.get? k = some o := by
  obtain ⟨o', ho', hsettled⟩ := q.symm.object h
  rwa [Object.eq_of_settled_eq_of_not_floating hsettled.symm hnot] at ho'

theorem Quiet.keepsPlaced (q : Quiet s s') : KeepsPlaced s s' :=
  fun _ _ => q.object_of_not_floating

theorem ObjectsWellFormed.quiet (h : ObjectsWellFormed s) (q : Quiet s s')
    (hhandles : ∀ h k, s'.handles.get? h = some (some k) → ∃ o, s.objects.get? k = some o) :
    ObjectsWellFormed s' := by
  refine .of_parts ?collections ?objects ?handles
  case collections =>
    intro c col' hcol'
    obtain ⟨col, hcol, heq⟩ := q.collection hcol'
    have hfits := q.keepsPlaced.collectionFits q.retains (h.collectionFits hcol)
    rw [heq]
    exact ⟨hfits.listed, hfits.slots, hfits.columns⟩
  case objects =>
    intro k o' ho'
    obtain ⟨o, ho, hsettled⟩ := q.object ho'
    by_cases hfloating : ∃ n, o.tracking = .floating n
    · obtain ⟨n, hn⟩ := hfloating
      obtain ⟨m, hm⟩ := Object.isFloating_of_settled_eq hsettled hn
      rw [Object.eq_of_settled_eq hsettled, hm]
      exact (h.objectFits ho).move q.retains hn fun c i => nofun
    -- only floating objects may differ
    · obtain rfl := Object.eq_of_settled_eq_of_not_floating hsettled fun n hn => hfloating ⟨n, hn⟩
      refine (h.objectFits ho).carry q.retains fun c i col _ hcol => ?_
      obtain ⟨col', hcol', heq⟩ := q.symm.collection hcol
      refine ⟨col', hcol', ?_⟩
      rw [heq]
      exact ⟨(Collection.Continues.refl col').listed, (Collection.Continues.refl col').columns⟩
  case handles =>
    intro key k hk
    obtain ⟨o, ho⟩ := hhandles key k hk
    obtain ⟨o', ho', -⟩ := q.retains k o ho
    exact ⟨o', ho'⟩

end Store
end EventModel
