import EventModel.Proofs.Store.Sharing
import EventModel.Stream

/-!
# Operations on stores that are alike

Every operation gives the same answer on two stores that are `Alike`, and leaves stores that are
alike again. Updates of the store come first, with what they need of the objects and collections
that they change; operations are put together from them in the order of the model.
-/

namespace EventModel.Store

variable {s s' : Store} {k : ObjectKey} {c : CollectionKey} {i : Nat} {t : DataType}

/-! ## Updates of objects -/

namespace SameObject

variable {collections : Arena Collection} {o o' : Object}

/-- A floating object has no windows, so it is the same in both stores wherever it belongs next. -/
theorem move (h : SameObject collections k o o') {n : UInt32} (hfloating : o.tracking = .floating n)
    (tracking : Tracking) :
    SameObject collections k { o with tracking } { o' with tracking } := by
  cases h with
  | released => cases hfloating
  | same hbody =>
    cases hbody with
    | refl => exact .same (.refl _)
    | copied _ htracking => cases hfloating.symm.trans htracking

theorem acquire (h : SameObject collections k o o') :
    SameObject collections k o.acquire o'.acquire := by
  unfold Object.acquire
  rw [h.tracking_eq]
  rcases htracking : o.tracking with n | ⟨c, i⟩ | _
  · exact h.move htracking _
  · exact h
  · exact h

theorem letGo (h : SameObject collections k o o') :
    SameObject collections k o.letGo o'.letGo := by
  unfold Object.letGo
  rw [h.tracking_eq]
  rcases htracking : o.tracking with n | ⟨c, i⟩ | _
  · exact h.move htracking _
  · exact h
  · exact h

theorem release (h : SameObject collections k o o') :
    SameObject collections k o.release o'.release := by
  cases h with
  | released => exact .released _ _
  | same => exact .released _ _

end SameObject

namespace Alike

theorem modifyObject (h : Alike s s') {f f' : Object → Object}
    (hf : ∀ o o', s.objects.get? k = some o → SameObject s.collections k o o' →
      SameObject s.collections k (f o) (f' o')) :
    Alike (s.modifyObject k f) (s'.modifyObject k f') where
  collections := h.collections
  frames := h.frames
  handles := h.handles
  serial := h.serial
  next := by simpa using h.next
  objects k' := by
    rw [modifyObject_objects, modifyObject_objects, Arena.get?_modify, Arena.get?_modify]
    by_cases heq : k = k'
    · subst heq
      rw [if_pos rfl, if_pos rfl]
      rcases h.get?_cases k with ⟨ho, ho'⟩ | ⟨o, o', ho, ho', hsame⟩
      · rw [ho, ho']
        exact .none
      · rw [ho, ho']
        exact .some (hf o o' ho hsame)
    · rw [if_neg heq, if_neg heq]
      exact h.objects k'

theorem insertObject (h : Alike s s') (o : Object) :
    Alike { s with objects := s.objects.insert o } { s' with objects := s'.objects.insert o } where
  collections := h.collections
  frames := h.frames
  handles := h.handles
  serial := h.serial
  next := by simpa using h.next
  objects k := by
    rw [Arena.get?_insert, Arena.get?_insert, h.next]
    split
    · exact .some (.refl _ _ o)
    · exact h.objects k

theorem setBody (h : Alike s s') {tracking : Tracking} {body new new' : Body t}
    (ho : s.objects.get? k = some ⟨t, tracking, body⟩)
    (hnew : SameBody s.collections k tracking new new') :
    Alike (s.setBody k new) (s'.setBody k new') := by
  refine h.modifyObject fun o o' ho' hsame => ?_
  cases ho.symm.trans ho'
  cases hsame with
  | released =>
    simp only [↓reduceDIte]
    exact .released _ _
  | same =>
    simp only [↓reduceDIte]
    exact .same hnew

end Alike

/-! ## Updates of collections -/

/-- What the windows of an object select from stays as it is. -/
def KeepsServing (collections collections' : Arena Collection) (k : ObjectKey) : Prop :=
  ∀ (c : CollectionKey) (col : Collection) (i : Nat) (t : DataType)
    (many : Vector (List ObjectKey) t.toMany.length), collections.get? c = some col →
      col.Serves i k many → ∃ col', collections'.get? c = some col' ∧ col'.Serves i k many

theorem SameBody.of_keeps {collections collections' : Arena Collection} {tracking : Tracking}
    {body body' : Body t} (h : SameBody collections k tracking body body')
    (hkeeps : KeepsServing collections collections' k) :
    SameBody collections' k tracking body body' := by
  cases h with
  | refl => exact .refl _
  | copied _ htracking hmany hselects =>
    rcases hselects with ⟨col, many, hcol, hserves, hslices⟩
    rcases hkeeps _ col _ _ many hcol hserves with ⟨col', hcol', hserves'⟩
    exact .copied _ htracking hmany ⟨col', many, hcol', hserves', hslices⟩

theorem SameObject.of_keeps {collections collections' : Arena Collection} {o o' : Object}
    (h : SameObject collections k o o') (hkeeps : KeepsServing collections collections' k) :
    SameObject collections' k o o' := by
  cases h with
  | released => exact .released _ _
  | same hbody => exact .same (hbody.of_keeps hkeeps)

/-- A collection may change in any way that windows do not rely on. -/
theorem keepsServing_modify {collections : Arena Collection} {f : Collection → Collection}
    (hf : ∀ col i t (many : Vector (List ObjectKey) (DataType.toMany t).length),
      collections.get? c = some col → col.Serves i k many → (f col).Serves i k many) :
    KeepsServing collections (collections.modify c f) k := by
  intro d col i t many hcol hserves
  by_cases heq : c = d
  · subst heq
    exact ⟨f col, Arena.get?_modify_self hcol f, hf col i t many hcol hserves⟩
  · exact ⟨col, (Arena.get?_modify_ne heq f).trans hcol, hserves⟩

theorem keepsServing_advanceOwner (k k' : ObjectKey) :
    KeepsServing s.collections (s.advanceOwner k).collections k' := by
  unfold advanceOwner
  split
  · exact keepsServing_modify fun _ _ _ _ _ hserves => ⟨hserves.listed, hserves.columns⟩
  · exact fun _ col _ _ _ hcol hserves => ⟨col, hcol, hserves⟩

namespace Alike

theorem objects_of_keeps (h : Alike s s') {collections : Arena Collection}
    (hkeeps : KeepsServing s.collections collections k) :
    Option.Rel (SameObject collections k) (s.objects.get? k) (s'.objects.get? k) := by
  rcases h.get?_cases k with ⟨ho, ho'⟩ | ⟨o, o', ho, ho', hsame⟩
  · rw [ho, ho']
    exact .none
  · rw [ho, ho']
    exact .some (hsame.of_keeps hkeeps)

theorem withCollections (h : Alike s s') {collections : Arena Collection}
    (hkeeps : ∀ k, KeepsServing s.collections collections k) :
    Alike { s with collections } { s' with collections } where
  collections := rfl
  frames := h.frames
  handles := h.handles
  serial := h.serial
  next := h.next
  objects k := h.objects_of_keeps (hkeeps k)

theorem modifyCollection (h : Alike s s') {f : Collection → Collection}
    (hf : ∀ col k i t (many : Vector (List ObjectKey) (DataType.toMany t).length),
      s.collections.get? c = some col → col.Serves i k many → (f col).Serves i k many) :
    Alike (s.modifyCollection c f) (s'.modifyCollection c f) := by
  rw [Store.modifyCollection, Store.modifyCollection, h.collections]
  exact h.withCollections fun k => keepsServing_modify fun col => hf col k

theorem insertCollection (h : Alike s s') (col : Collection) :
    Alike { s with collections := s.collections.insert col }
      { s' with collections := s'.collections.insert col } := by
  rw [h.collections]
  exact h.withCollections fun k d old i t many hold hserves =>
    ⟨old, Arena.get?_insert_of_get? hold, hserves⟩

theorem advanceOwner (h : Alike s s') (k : ObjectKey) :
    Alike (s.advanceOwner k) (s'.advanceOwner k) := by
  have howner : (s'.objects.get? k).bind Object.owner? = (s.objects.get? k).bind Object.owner? :=
    congrFun h.ownerOf? k
  unfold Store.advanceOwner
  rw [howner]
  rcases (s.objects.get? k).bind Object.owner? with _ | owner
  · exact h
  · exact h.modifyCollection fun _ _ _ _ _ _ hserves => ⟨hserves.listed, hserves.columns⟩

theorem releaseAll (h : Alike s s') (ks : List ObjectKey) :
    Alike (s.releaseAll ks) (s'.releaseAll ks) := by
  induction ks generalizing s s' with
  | nil => exact h
  | cons k rest ih => exact ih (h.modifyObject fun _ _ _ hsame => hsame.release)

/-- A collection that loses its objects releases them first, so no windows need it any more. -/
theorem withReset (h : Alike s s') {col : Collection} (hcol : s.collections.get? c = some col)
    (subset : Bool) : Alike (s.withReset c col subset) (s'.withReset c col subset) where
  collections := by simp [Store.withReset, h.collections]
  frames := by simpa [Store.withReset] using h.frames
  handles := by simpa [Store.withReset] using h.handles
  serial := (h.releaseAll col.storage.objects).serial
  next := (h.releaseAll col.storage.objects).next
  objects k := by
    rw [withReset_get?, withReset_get?]
    by_cases hk : k ∈ col.storage.objects
    · rw [if_pos hk, if_pos hk]
      rcases h.get?_cases k with ⟨ho, ho'⟩ | ⟨o, o', ho, ho', hsame⟩
      · rw [ho, ho']
        exact .none
      · rw [ho, ho']
        cases hsame with
        | released => exact .some (.released _ _)
        | same => exact .some (.released _ _)
    · rw [if_neg hk, if_neg hk]
      -- an object that is left was not listed in the collection, so its windows look elsewhere
      refine h.objects_of_keeps fun d other i t many hother hserves => ?_
      by_cases heq : d = c
      · subst heq
        cases hcol.symm.trans hother
        rcases hserves.listed with ⟨objects, hstorage, hi⟩
        refine absurd ?_ hk
        rw [hstorage, Storage.objects, Array.mem_toList_iff]
        exact Array.mem_of_getElem? hi
      · exact ⟨other, (withReset_collections_ne heq col subset).trans hother, hserves⟩

theorem withoutCollection (h : Alike s s') (c : CollectionKey) :
    Alike (s.withoutCollection c) (s'.withoutCollection c) := by
  unfold Store.withoutCollection
  rw [h.collections]
  rcases hcol : s.collections.get? c with _ | col
  · exact h
  · have hreset := h.withReset hcol col.isSubset
    have hself := withReset_collections_self hcol col.isSubset
    dsimp only
    rw [hreset.collections]
    refine hreset.withCollections fun k d other i t many hother hserves => ?_
    by_cases heq : c = d
    · -- after the reset the collection has no columns that could serve an object
      subst heq
      cases hself.symm.trans hother
      rcases hserves.columns with ⟨id, horigin⟩
      rcases originAs_eq_some horigin with ⟨htype, hnone⟩
      cases hnone
    · exact ⟨other, by rw [Arena.get?_erase, if_neg heq, hother], hserves⟩

/-! ## Handles -/

theorem withHandles (h : Alike s s') (handles : Arena (Option ObjectKey)) :
    Alike { s with handles } { s' with handles } where
  collections := h.collections
  frames := h.frames
  handles := rfl
  serial := h.serial
  next := h.next
  objects := h.objects

theorem withHandle (h : Alike s s') (target : Option ObjectKey) :
    Alike (s.withHandle target) (s'.withHandle target) := by
  unfold Store.withHandle
  rw [h.handles]
  have hinsert := h.withHandles (s.handles.insert target)
  rcases target with _ | k
  · exact hinsert
  · exact hinsert.modifyObject fun _ _ _ hsame => hsame.acquire

theorem withoutTarget (h : Alike s s') (key : HandleKey) (k : ObjectKey) :
    Alike (s.withoutTarget key k) (s'.withoutTarget key k) := by
  unfold Store.withoutTarget
  rw [h.handles]
  exact (h.withHandles _).modifyObject fun _ _ _ hsame => hsame.letGo

/-! ## Frames -/

theorem withFrames (h : Alike s s') (frames : Arena Frame) :
    Alike { s with frames } { s' with frames } where
  collections := h.collections
  frames := rfl
  handles := h.handles
  serial := h.serial
  next := h.next
  objects := h.objects

theorem modifyFrame (h : Alike s s') (f : FrameKey) (g : Frame → Frame) :
    Alike (s.modifyFrame f g) (s'.modifyFrame f g) := by
  rw [Store.modifyFrame, Store.modifyFrame, h.frames]
  exact h.withFrames _

end Alike

/-! ## Running two operations side by side -/

variable {α β : Type}

/-- Two runs give the same answer and end in stores that are alike. -/
structure Matches (x x' : α × Store) : Prop where
  answer : x'.1 = x.1
  stores : Alike x.2 x'.2

namespace Matches

theorem answered (h : Alike s s') (x : α) : Matches (x, s) (x, s') :=
  ⟨rfl, h⟩

theorem cases {x x' : α × Store} (h : Matches x x') :
    ∃ answer t t', x = (answer, t) ∧ x' = (answer, t') ∧ Alike t t' :=
  ⟨x.1, x.2, x'.2, rfl, Prod.ext h.answer rfl, h.stores⟩

theorem done (h : Alike s s') (x : α) : Matches ((pure x : Action α) s) ((pure x : Action α) s') :=
  ⟨rfl, h⟩

theorem bind {a a' : Action α} {f f' : α → Action β} (h : Matches (a s) (a' s'))
    (hf : ∀ x t t', Alike t t' → Matches (f x t) (f' x t')) :
    Matches ((a >>= f) s) ((a' >>= f') s') := by
  rcases h.cases with ⟨answer, t, t', hrun, hrun', ht⟩
  rw [bind_apply, bind_apply, hrun, hrun']
  rcases answer with e | x
  · exact answered ht _
  · exact hf x t t' ht

/-- Both runs ask a question that has the same answer in both stores. -/
theorem ask (h : Alike s s') {x : Except Error α} {f f' : α → Action β}
    (hf : ∀ y, x = .ok y → Matches (f y s) (f' y s')) :
    Matches ((liftM x >>= f) s) ((liftM x >>= f') s') := by
  rw [bind_apply, bind_apply, ask_apply, ask_apply]
  rcases x with e | y
  · exact answered h _
  · exact hf y rfl

/-- Both runs ask a question that has related answers. -/
theorem askRelated (h : Alike s s') {γ γ' : Type} {R : γ → γ' → Prop} {x : Except Error γ}
    {x' : Except Error γ'} {f : γ → Action β} {f' : γ' → Action β} (hx : Parallel R x x')
    (hf : ∀ y y', x = .ok y → R y y' → Matches (f y s) (f' y' s')) :
    Matches ((liftM x >>= f) s) ((liftM x' >>= f') s') := by
  rw [bind_apply, bind_apply, ask_apply, ask_apply]
  cases hx with
  | error e => exact answered h _
  | ok hR => exact hf _ _ rfl hR

/-- Both runs change their stores. -/
theorem change {g g' : Store → Store} {f f' : PUnit → Action β}
    (hf : Matches (f ⟨⟩ (g s)) (f' ⟨⟩ (g' s'))) :
    Matches ((modify g >>= f) s) ((modify g' >>= f') s') := by
  rw [modify_bind_apply, modify_bind_apply]
  exact hf

theorem map {a a' : Action α} (h : Matches (a s) (a' s')) (g : α → β) :
    Matches ((g <$> a) s) ((g <$> a') s') := by
  rcases h.cases with ⟨answer, t, t', hrun, hrun', ht⟩
  rw [map_apply, map_apply, hrun, hrun']
  rcases answer with e | x
  · exact answered ht _
  · exact answered ht _

theorem forEach {γ : Type} {f : γ → Action Unit} {xs : List γ} (h : Alike s s')
    (hf : ∀ x s s', Alike s s' → Matches (f x s) (f x s')) :
    Matches (forEach f xs s) (forEach f xs s') := by
  induction xs generalizing s s' with
  | nil => exact answered h _
  | cons x rest ih => exact (hf x s s' h).bind fun _ t t' ht => ih ht

end Matches

namespace Alike

/-! ## Making and dropping handles -/

theorem refer (h : Alike s s') (target : Option ObjectKey) :
    Matches (refer target s) (refer target s') := by
  rw [refer_apply, refer_apply, h.handles]
  exact .answered (h.withHandle target) _

theorem handleTo (h : Alike s s') (t : DataType) (target : Option ObjectKey) :
    Matches (handleTo t target s) (handleTo t target s') := by
  rw [handleTo_apply, handleTo_apply, h.handles]
  exact .answered (h.withHandle target) _

theorem mutableHandleTo (h : Alike s s') (t : DataType) (target : Option ObjectKey) :
    Matches (mutableHandleTo t target s) (mutableHandleTo t target s') := by
  rw [mutableHandleTo_apply, mutableHandleTo_apply, h.handles]
  exact .answered (h.withHandle target) _

theorem newObject (h : Alike s s') (t : DataType) (payload : t.payload.Value) :
    Matches (newObject t payload s) (newObject t payload s') := by
  rw [Store.newObject, get_bind_apply, get_bind_apply, bind_apply_of_ok (set_apply _ s),
    bind_apply_of_ok (set_apply _ s'), h.next]
  exact (h.insertObject _).mutableHandleTo t _

theorem erase (h : Alike s s') (r : Reference) : Matches (erase r s) (erase r s') := by
  rw [Store.erase, get_bind_apply, get_bind_apply, h.target]
  exact h.refer _

theorem cloneHandle (h : Alike s s') (handle : Handle t) :
    Matches (cloneHandle handle s) (cloneHandle handle s') := by
  rw [Store.cloneHandle, get_bind_apply, get_bind_apply, h.target]
  exact h.handleTo t _

theorem cloneMutable (h : Alike s s') (handle : MutableHandle t) :
    Matches (cloneMutable handle s) (cloneMutable handle s') := by
  rw [Store.cloneMutable, get_bind_apply, get_bind_apply, h.target]
  exact h.mutableHandleTo t _

theorem downcast (h : Alike s s') (t : DataType) (r : Reference) :
    Matches (downcast t r s) (downcast t r s') := by
  rw [Store.downcast]
  simp only [get_bind_apply]
  rw [h.target, h.expectType]
  exact .ask h fun k _ => h.handleTo t _

theorem downcastMutable (h : Alike s s') (t : DataType) (r : Reference) :
    Matches (downcastMutable t r s) (downcastMutable t r s') := by
  rw [Store.downcastMutable]
  simp only [get_bind_apply]
  rw [h.target, h.expectType]
  exact .ask h fun k _ => h.mutableHandleTo t _

theorem unlink (h : Alike s s') (r : Reference) : Matches (unlink r s) (unlink r s') := by
  rw [unlink_apply, unlink_apply, h.target]
  rcases s.target r with _ | k
  · exact .answered h _
  · exact .answered (h.withoutTarget r.key k) _

theorem drop (h : Alike s s') (r : Reference) : Matches (drop r s) (drop r s') := by
  refine (h.unlink r).bind fun _ t t' ht => ?_
  rw [modify_apply, modify_apply, ht.handles]
  exact .answered (ht.withHandles _) _

/-! ## Handles to related objects -/

theorem referAll (h : Alike s s') (places : List (Option ObjectKey)) :
    Matches (referAll places s) (referAll places s') := by
  induction places generalizing s s' with
  | nil => exact .answered h _
  | cons place rest ih =>
    exact (h.refer place).bind fun _ t t' ht => (ih ht).bind fun _ u u' hu => .answered hu _

theorem dropAll (h : Alike s s') (references : List Reference) :
    Matches (dropAll references s) (dropAll references s') := by
  induction references generalizing s s' with
  | nil => exact .answered h _
  | cons r rest ih => exact (h.drop r).bind fun _ t t' ht => ih ht

end Alike

namespace Matches

theorem thenDrop {a : Action α} (h : Matches (a s) (a s')) (temporaries : List Reference) :
    Matches (thenDrop temporaries a s) (thenDrop temporaries a s') := by
  unfold Store.thenDrop
  exact ⟨h.answer, (h.stores.dropAll temporaries).stores⟩

theorem dropOnFailure {a : Action α} (h : Matches (a s) (a s')) (r : Reference) :
    Matches (dropOnFailure r a s) (dropOnFailure r a s') := by
  rcases h.cases with ⟨answer, t, t', hrun, hrun', ht⟩
  unfold Store.dropOnFailure
  rw [hrun, hrun']
  rcases answer with e | x
  · exact .answered (ht.drop r).stores _
  · exact .answered ht _

end Matches

namespace Alike

theorem downcastAll (h : Alike s s') (u : DataType) (references : List Reference) :
    Matches (downcastAll u references s) (downcastAll u references s') := by
  induction references generalizing s s' with
  | nil => exact .answered h _
  | cons r rest ih =>
    refine (h.downcast u r).bind fun handle t t' ht => ?_
    exact ((ih ht).bind fun handles _ _ hv => .done hv (handle :: handles)).dropOnFailure
      handle.toReference

theorem relatedReferences (h : Alike s s') (handle : Handle t) (relation : Nat) :
    Matches (relatedReferences handle relation s) (relatedReferences handle relation s') := by
  rw [Store.relatedReferences, get_bind_apply, get_bind_apply, h.target, h.related]
  exact .ask h fun places _ => h.referAll places

theorem relatedHandles (h : Alike s s') (u : DataType) (handle : Handle t) (relation : Nat) :
    Matches (relatedHandles u handle relation s) (relatedHandles u handle relation s') :=
  (h.relatedReferences handle relation).bind fun references _ _ ht =>
    (ht.downcastAll u references).thenDrop references

theorem singleReference (h : Alike s s') (handle : Handle t) (relation : Nat) :
    Matches (singleReference handle relation s) (singleReference handle relation s') := by
  rw [Store.singleReference, get_bind_apply, get_bind_apply, h.target, h.readsSame.single]
  refine .ask h fun place _ => ?_
  rcases place with _ | place
  · exact .answered h _
  · exact (h.refer place).bind fun _ t t' ht => .answered ht _

theorem singleHandle (h : Alike s s') (u : DataType) (handle : Handle t) (relation : Nat) :
    Matches (singleHandle u handle relation s) (singleHandle u handle relation s') := by
  refine (h.singleReference handle relation).bind fun found v v' hv => ?_
  rcases found with _ | r
  · exact .answered hv _
  · exact ((hv.downcast u r).map some).thenDrop [r]

/-! ## Changing an object -/

theorem edit (h : Alike s s') (handle : MutableHandle t)
    {f : Store → ObjectKey → Body t → Except Error (Body t)}
    (hf : ∀ k tracking body body', s.objects.get? k = some ⟨t, tracking, body⟩ →
      SameBody s.collections k tracking body body' →
        Parallel (SameBody s.collections k tracking) (f s k body) (f s' k body')) :
    Matches (edit handle f s) (edit handle f s') := by
  have hbody := h.bodyOf t (s.target handle.toReference)
  unfold Store.edit
  rw [h.target]
  generalize s.bodyOf t (s.target handle.toReference) = x at hbody
  generalize s'.bodyOf t (s.target handle.toReference) = x' at hbody
  cases hbody with
  | error e => exact .answered h _
  | @ok y y' hread =>
    rcases y with ⟨k, body⟩
    rcases y' with ⟨k', body'⟩
    rcases hread with ⟨heq, tracking, ho, hsame⟩
    dsimp only at heq ho hsame ⊢
    subst heq
    have hnew := hf _ tracking body body' ho hsame
    generalize f s _ body = z at hnew
    generalize f s' _ body' = z' at hnew
    -- the owner counts the change even if the new body is refused
    cases hnew with
    | error e => exact .answered (h.advanceOwner _) _
    | ok hnew =>
      refine .answered ((h.advanceOwner _).setBody (by simpa using ho) ?_) _
      exact hnew.of_keeps (keepsServing_advanceOwner _ _)

end Alike

/-- A function of bodies that passes the to-many relations on keeps them the same. -/
theorem SameBody.map {collections : Arena Collection} {tracking : Tracking} {body body' : Body t}
    (h : SameBody collections k tracking body body') {g : Body t → Body t}
    (hg : ∀ body many, g { body with toMany := many } = { g body with toMany := many }) :
    SameBody collections k tracking (g body) (g body') := by
  cases h with
  | refl => exact .refl _
  | @copied _ _ body windows lists htracking hmany hselects =>
    have hwindows : (g body).toMany = .windows windows := by
      calc
        (g body).toMany = (g { body with toMany := body.toMany }).toMany := rfl
        _ = body.toMany := by rw [hg body body.toMany]
        _ = .windows windows := hmany
    rw [hg body (.lists lists)]
    exact .copied _ htracking hwindows hselects

/-- Bodies with the same new lists are the same. -/
theorem SameBody.withLists {collections : Arena Collection} {tracking : Tracking}
    {body body' : Body t} (h : SameBody collections k tracking body body')
    (lists : Vector (List ObjectKey) t.toMany.length) :
    SameBody collections k tracking { body with toMany := .lists lists }
      { body' with toMany := .lists lists } := by
  cases h with
  | refl => exact .refl _
  | copied => exact .refl _

namespace Alike

theorem editBody (h : Alike s s') (handle : MutableHandle t) {g : Body t → Body t}
    (hg : ∀ body many, g { body with toMany := many } = { g body with toMany := many }) :
    Matches (Store.edit handle (fun _ _ body => .ok (g body)) s)
      (Store.edit handle (fun _ _ body => .ok (g body)) s') :=
  h.edit handle fun _ _ _ _ _ hsame => .ok (hsame.map hg)

/-- The lists that are changed are the same, whether they are copied before or with the change. -/
theorem editLists (h : Alike s s') (handle : MutableHandle t)
    (g : Vector (List ObjectKey) t.toMany.length → Vector (List ObjectKey) t.toMany.length) :
    let change : Store → ObjectKey → Body t → Except Error (Body t) := fun s own body => do
      let lists ← s.ownLists own body
      return { body with toMany := .lists (g lists) }
    Matches (Store.edit handle change s) (Store.edit handle change s') := by
  refine h.edit handle fun k tracking body body' ho hsame => ?_
  have hread : s.ReadAlike k body body' := ⟨tracking, ho, hsame⟩
  rw [hread.ownLists_eq h]
  rcases s.ownLists k body with e | lists
  · exact .error e
  · exact .ok (hsame.withLists (g lists))

theorem updatePayload (h : Alike s s') (handle : MutableHandle t)
    (f : t.payload.Value → t.payload.Value) :
    Matches (updatePayload handle f s) (updatePayload handle f s') :=
  h.editBody handle fun _ _ => rfl

theorem pushMember (h : Alike s s') (handle : MutableHandle t) (member : Nat)
    (value : t.element.Value) :
    Matches (pushMember handle member value s) (pushMember handle member value s') :=
  .ask h fun _ _ => h.editBody handle fun _ _ => rfl

theorem setMembers (h : Alike s s') (handle : MutableHandle t) (member : Nat)
    (values : List t.element.Value) :
    Matches (setMembers handle member values s) (setMembers handle member values s') :=
  .ask h fun _ _ => h.editBody handle fun _ _ => rfl

theorem addRelated (h : Alike s s') (handle : MutableHandle t) (relation : Nat)
    (target : Reference) :
    Matches (addRelated handle relation target s) (addRelated handle relation target s') := by
  refine .ask h fun r _ => ?_
  simp only [get_bind_apply]
  rw [h.checkTarget, h.target]
  exact .ask h fun k _ => h.editLists handle fun lists => setAt lists r (lists[r] ++ [k])

theorem clearRelated (h : Alike s s') (handle : MutableHandle t) (relation : Nat) :
    Matches (clearRelated handle relation s) (clearRelated handle relation s') :=
  .ask h fun r _ => h.editLists handle fun lists => setAt lists r []

theorem setSingle (h : Alike s s') (handle : MutableHandle t) (relation : Nat)
    (target : Reference) :
    Matches (setSingle handle relation target s) (setSingle handle relation target s') := by
  rcases hindex : checkIndex relation t.toOne.length with e | r
  · rw [Store.setSingle, bind_apply, bind_apply, ask_apply, ask_apply, hindex]
    exact .answered h _
  · have htarget' : s'.target target = s.target target := by rw [h.target]
    rcases htarget : s.target target with _ | k
    · rw [setSingle_apply_of_none hindex htarget,
        setSingle_apply_of_none hindex (htarget'.trans htarget)]
      exact h.editBody handle fun _ _ => rfl
    · rw [setSingle_apply_of_some hindex htarget,
        setSingle_apply_of_some hindex (htarget'.trans htarget), h.checkTarget]
      rcases s.checkTarget (some k) (t.toOne.get r).target with e | k'
      · exact .answered h _
      · exact h.editBody handle fun _ _ => rfl

/-! ## Collections -/

theorem addCollection (h : Alike s s') (col : Collection) :
    Matches (addCollection col s) (addCollection col s') where
  answer := by simp only [Store.addCollection, h.collections]
  stores := h.insertCollection col

theorem clear (h : Alike s s') (c : CollectionKey) : Matches (clear c s) (clear c s') := by
  rcases hcol : s.collections.get? c with _ | col
  · rw [clear_apply_of_none hcol, clear_apply_of_none (h.collections ▸ hcol)]
    exact .answered h _
  · rw [clear_apply hcol, clear_apply (h.collections ▸ hcol)]
    exact .answered (h.withReset hcol _) _

theorem discard (h : Alike s s') (c : CollectionKey) : Matches (discard c s) (discard c s') := by
  rw [discard_apply, discard_apply]
  exact .answered (h.withoutCollection c) _

theorem setCollectionId (h : Alike s s') (c : CollectionKey) (id : CollectionId) :
    Matches (setCollectionId c id s) (setCollectionId c id s') := by
  rw [Store.setCollectionId, modify_apply, modify_apply]
  refine .answered (h.modifyCollection ?_) _
  exact fun _ _ _ _ _ _ hserves => ⟨hserves.listed, hserves.columns⟩

theorem setSubset (h : Alike s s') (c : CollectionKey) (subset : Bool) :
    Matches (setSubset c subset s) (setSubset c subset s') := by
  rw [Store.setSubset, get_bind_apply, get_bind_apply, h.collection]
  refine .ask h fun col hcol => ?_
  split
  · exact .answered h _
  · rcases hempty : col.isEmpty
    · simp only [Bool.not_false, ↓reduceIte]
      exact .answered h _
    · simp only [Bool.not_true, Bool.false_eq_true, ↓reduceIte]
      refine .answered (h.modifyCollection fun other k i t many hother hserves => ?_) _
      cases (collection_eq_ok_iff.1 hcol).symm.trans hother
      -- an empty collection has no objects whose windows could rely on it
      rcases hserves.listed with ⟨objects, hstorage, hi⟩
      have hnone : objects.toList = [] := by
        simpa [hstorage, Storage.objects] using objects_of_isEmpty hempty
      simp [← Array.getElem?_toList, hnone] at hi

end Alike

theorem serves_appendOwned {col : Collection} {many : Vector (List ObjectKey) t.toMany.length}
    (h : col.Serves i k many) (k' : ObjectKey) : (appendOwned col k').Serves i k many := by
  rcases h with ⟨⟨objects, hstorage, hi⟩, hcolumns⟩
  refine ⟨⟨objects.push k', ?_, ?_⟩, ?_⟩
  · simp only [appendOwned, hstorage]
    rfl
  · have hlt : i < objects.size := (Array.getElem?_eq_some_iff.1 hi).1
    rw [Array.getElem?_push_lt hlt, ← hi, Array.getElem?_eq_getElem hlt]
  · simp only [appendOwned, hstorage]
    exact hcolumns

theorem serves_appendSlot {col : Collection} {many : Vector (List ObjectKey) t.toMany.length}
    (h : col.Serves i k many) (slot : Slot) : (appendSlot col slot).Serves i k many := by
  rcases h.listed with ⟨objects, hstorage, -⟩
  simpa only [appendSlot, hstorage] using h

namespace Alike

theorem create (h : Alike s s') (t : DataType) (c : CollectionKey) (payload : t.payload.Value) :
    Matches (create t c payload s) (create t c payload s') := by
  rw [Store.create, get_bind_apply, get_bind_apply, h.collectionAs]
  refine .ask h fun col _ => ?_
  rcases hsubset : col.isSubset
  · simp only [Bool.false_eq_true, ↓reduceIte]
    rw [get_bind_apply, get_bind_apply, h.next]
    refine .change (.change (Alike.mutableHandleTo ?_ t _))
    exact (h.insertObject _).modifyCollection fun _ _ _ _ _ _ hserves =>
      serves_appendOwned hserves _
  · simp only [↓reduceIte]
    exact .answered h _

theorem push (h : Alike s s') (c : CollectionKey) (handle : Handle t) :
    Matches (push c handle s) (push c handle s') := by
  rw [Store.push, get_bind_apply, get_bind_apply, h.collectionAs]
  refine .ask h fun col _ => ?_
  simp only [get_bind_apply]
  rw [h.target]
  refine .askRelated h (h.bodyOf t _) ?_
  rintro ⟨k, body⟩ ⟨k', body'⟩ - ⟨heq, -⟩
  dsimp only at heq ⊢
  subst heq
  rw [get_bind_apply, get_bind_apply]
  refine .askRelated h (h.object _) fun o o' ho hsame => ?_
  rw [hsame.tracking_eq]
  rcases htracking : o.tracking with n | ⟨owner, position⟩ | _
  · rcases hsubset : col.isSubset
    · simp only [Bool.false_eq_true, ↓reduceIte]
      refine .change ?_
      rw [modify_apply, modify_apply]
      refine .answered (Alike.modifyCollection (h.modifyObject fun o₁ o₁' ho₁ hsame₁ => ?_)
        fun _ _ _ _ _ _ hserves => serves_appendOwned hserves _) _
      -- the object that moves is the one that was found to be floating
      cases ho₁.symm.trans (object_eq_ok_iff.1 ho)
      exact hsame₁.move htracking _
    · simp only [↓reduceIte]
      exact .answered h _
  · rcases hsubset : col.isSubset
    · simp only [Bool.false_eq_true, ↓reduceIte]
      rw [get_bind_apply, get_bind_apply, h.addressOf hsame.tracking_eq]
      exact .answered h _
    · simp only [↓reduceIte]
      rw [modify_apply, modify_apply]
      refine .answered (h.modifyCollection ?_) _
      exact fun _ _ _ _ _ _ hserves => serves_appendSlot hserves _
  · exact .answered h _

/-! ## Access by position -/

theorem objectAt (h : Alike s s') (c : CollectionKey) (index : Nat) :
    Matches (objectAt c index s) (objectAt c index s') := by
  rw [Store.objectAt, get_bind_apply, get_bind_apply, h.collection]
  exact .ask h fun col _ => .ask h fun k _ => h.refer _

theorem getObject (h : Alike s s') (t : DataType) (c : CollectionKey) (index : Nat) :
    Matches (getObject t c index s) (getObject t c index s') := by
  rw [Store.getObject, get_bind_apply, get_bind_apply, h.collectionAs]
  exact .ask h fun col _ => .ask h fun k _ => h.handleTo t _

theorem getMutable (h : Alike s s') (t : DataType) (c : CollectionKey) (index : Nat) :
    Matches (getMutable t c index s) (getMutable t c index s') := by
  rw [Store.getMutable, get_bind_apply, get_bind_apply, h.collectionAs]
  exact .ask h fun col _ => .ask h fun k _ => h.mutableHandleTo t _

/-! ## Rebuilding -/

theorem addOwned (h : Alike s s') (c : CollectionKey) (position : Nat) (bodies : List (Body t)) :
    Alike (addOwned c position bodies s) (addOwned c position bodies s') := by
  induction bodies generalizing position s s' with
  | nil => exact h
  | cons body rest ih => exact ih (h.insertObject _) _

theorem rebuild (h : Alike s s') (t : DataType) (b : Buffers) (id : CollectionId)
    (config : Config) : Matches (rebuild t b id config s) (rebuild t b id config s') := by
  refine .ask h fun _ _ => ?_
  dsimp only
  split
  · exact .ask h fun ids _ => h.addCollection _
  · refine .ask h fun parts _ => ?_
    rcases parts with ⟨contents, bodies⟩
    dsimp only
    rw [get_bind_apply, get_bind_apply, h.next]
    refine (h.addCollection _).bind fun c v v' hv => ?_
    exact .change (.done (hv.addOwned c 0 bodies) c)

theorem build (h : Alike s s') (registry : Registry) (b : Buffers) (id : CollectionId)
    (config : Config) :
    Matches (build registry b id config s) (build registry b id config s') := by
  unfold Store.build
  rcases registry.find? b.type with _ | t
  · exact .answered h _
  · exact h.rebuild t b id config

/-! ## Resolution -/

theorem assignAllSingles (h : Alike s s')
    (columns : Vector (List (Option ObjectKey)) t.toOne.length) (position : Nat)
    (ks : List ObjectKey) :
    Alike (assignAllSingles columns position ks s) (assignAllSingles columns position ks s') := by
  induction ks generalizing position s s' with
  | nil => exact h
  | cons k rest ih =>
    rw [assignAllSingles_cons, assignAllSingles_cons]
    refine ih ?_ _
    have hbody := h.body t k
    -- the body is read in both stores or in neither
    unfold assignAt
    generalize s.body t k = x at hbody
    generalize s'.body t k = x' at hbody
    cases hbody with
    | error e => exact h
    | ok hread =>
      rcases hread with ⟨tracking, ho, hsame⟩
      exact h.setBody ho (hsame.map fun _ _ => rfl)

/-- Only a collection that waits for resolution gets new columns, and no windows rely on its old
ones. -/
theorem not_serves_of_stored {col : Collection} {id : CollectionId}
    {toMany : Vector (List ObjectId) col.type.toMany.length}
    {toOne : Vector (List ObjectId) col.type.toOne.length}
    (horigin : col.origin = some ⟨id, .stored toMany toOne⟩)
    {many : Vector (List ObjectKey) t.toMany.length} : ¬ col.Serves i k many := by
  intro hserves
  rcases hserves.columns with ⟨id', hcolumns⟩
  rcases originAs_eq_some hcolumns with ⟨rfl, hsome⟩
  cases horigin.symm.trans hsome

theorem setReferences (h : Alike s s') (resolver : Resolver) (c : CollectionKey) :
    Matches (setReferences resolver c s) (setReferences resolver c s') := by
  rw [Store.setReferences, get_bind_apply, get_bind_apply, h.collection]
  refine .ask h fun col hcol => ?_
  dsimp only
  rw [originAs_self]
  rcases horigin : col.origin with _ | ⟨id, ⟨toMany, toOne⟩ | many⟩
  · exact .answered h _
  · dsimp only
    rcases hstorage : col.storage with objects | slots
    · dsimp only
      rw [get_bind_apply, get_bind_apply, h.resolveRequired, h.resolveOptional]
      refine .ask h fun many _ => .ask h fun one _ => ?_
      rw [modify_apply, modify_apply]
      refine .answered (Alike.modifyCollection (h.assignAllSingles one 0 objects.toList) ?_) _
      -- the to-one places are set first, which leaves the collections as they were
      intro other k i u many' hother hserves
      rw [assignAllSingles_collections, collection_eq_ok_iff.1 hcol] at hother
      cases hother
      exact absurd hserves (not_serves_of_stored horigin)
    · dsimp only
      rw [get_bind_apply, get_bind_apply, h.resolveSlot]
      rw [bind_apply, bind_apply, liftExcept_apply, liftExcept_apply]
      rcases slots.toList.mapM (s.resolveSlot resolver col.type) with e | linked
      · exact .answered h _
      · dsimp only
        rw [modify_apply, modify_apply]
        refine .answered (h.modifyCollection fun other k i u many hother hserves => ?_) _
        cases (collection_eq_ok_iff.1 hcol).symm.trans hother
        exact absurd hserves (not_serves_of_stored horigin)
  · exact .answered h _

theorem resolveAll (h : Alike s s') (cs : List CollectionKey) :
    Matches (resolveAll cs s) (resolveAll cs s') := by
  rw [Store.resolveAll, get_bind_apply, get_bind_apply, h.resolverOf, h.collectionIds]
  exact .forEach h fun c _ _ hv => hv.setReferences _ c

theorem resolve (h : Alike s s') (resolver : Resolver) (id : ObjectId) :
    Matches (resolve resolver id s) (resolve resolver id s') := by
  rw [Store.resolve, get_bind_apply, get_bind_apply, h.resolveObject]
  exact .ask h fun k _ => h.refer _

/-! ## Writing -/

theorem nextSerial (h : Alike s s') :
    Alike { s with serial := s.serial + 1 } { s' with serial := s'.serial + 1 } where
  collections := h.collections
  frames := h.frames
  handles := h.handles
  serial := congrArg (· + 1) h.serial
  next := h.next
  objects := h.objects

/-- The buffers that are kept do not matter to windows. -/
theorem keepBuffers (h : Alike s s') (c : CollectionKey) (prepared : Option Prepared) :
    Alike (s.modifyCollection c fun col => { col with prepared })
      (s'.modifyCollection c fun col => { col with prepared }) :=
  h.modifyCollection fun _ _ _ _ _ _ hserves => ⟨hserves.listed, hserves.columns⟩

theorem prepare (h : Alike s s') (c : CollectionKey) : Matches (prepare c s) (prepare c s') := by
  unfold Store.prepare
  rw [h.collection, h.isCurrent, h.flattenCollection, h.stamps, h.serial]
  rcases s.collection c with e | col
  · exact .answered h _
  · dsimp only
    rcases col.prepared.filter s.isCurrent with _ | prepared
    · dsimp only
      rcases s.flattenCollection col with e | buffers
      · exact .answered (h.keepBuffers c none) _
      · have hnext := h.nextSerial
        rw [h.serial] at hnext
        exact .answered (hnext.keepBuffers c _) _
    · exact .answered h _

theorem prepareAll (h : Alike s s') (slots : List (String × CollectionKey)) :
    Matches (prepareAll slots s) (prepareAll slots s') := by
  induction slots generalizing s s' with
  | nil => exact .answered h _
  | cons slot rest ih =>
    refine (h.prepare slot.2).bind fun kept v v' hv => ?_
    exact (ih hv).bind fun written _ _ hw => .done hw ((slot.1, kept.2) :: written)

theorem writeFrame (h : Alike s s') (f : FrameKey) :
    Matches (writeFrame f s) (writeFrame f s') := by
  rw [Store.writeFrame, get_bind_apply, get_bind_apply, h.frame]
  refine .ask h fun frame _ => ?_
  exact (h.prepareAll frame.slots).bind fun _ _ _ hv => .done hv _

/-! ## Frames -/

theorem newFrame (h : Alike s s') (config : Config) :
    Matches (newFrame config s) (newFrame config s') := by
  unfold Store.newFrame
  rw [h.frames]
  exact .answered (h.withFrames _) _

theorem discardFrame (h : Alike s s') (f : FrameKey) :
    Matches (discardFrame f s) (discardFrame f s') := by
  rw [Store.discardFrame, get_bind_apply, get_bind_apply, h.frames]
  rcases s.frames.get? f with _ | frame
  · exact .answered h _
  · refine (Matches.forEach h fun c _ _ hv => hv.discard c).bind fun _ v v' hv => ?_
    rw [modify_apply, modify_apply, hv.frames]
    exact .answered (hv.withFrames _) _

theorem put (h : Alike s s') (f : FrameKey) (name : String) (c : CollectionKey) :
    Matches (put f name c s) (put f name c s') := by
  rw [Store.put, get_bind_apply, get_bind_apply, h.frame]
  refine .ask h fun frame _ => ?_
  rcases frame.accept name with e | ⟨id, ids⟩
  · exact (h.discard c).bind fun _ _ _ hv => .answered hv _
  · refine (h.setCollectionId c id).bind fun _ v v' hv => ?_
    exact .change (.done (hv.modifyFrame f _) _)

theorem setParameters (h : Alike s s') (f : FrameKey) (parameters : Parameters) :
    Matches (setParameters f parameters s) (setParameters f parameters s') := by
  rw [Store.setParameters, modify_apply, modify_apply]
  exact .answered (h.modifyFrame f _) _

theorem take (h : Alike s s') (t : DataType) (f : FrameKey) (name : String) :
    Matches (take t f name s) (take t f name s') := by
  rw [Store.take, get_bind_apply, get_bind_apply, h.frame]
  refine .ask h fun frame _ => ?_
  rcases frame.find? name with _ | ⟨position, c⟩
  · exact .answered h _
  · dsimp only
    rw [get_bind_apply, get_bind_apply, h.collectionAs]
    refine .ask h fun _ _ => ?_
    rw [modify_bind_apply, modify_bind_apply, h.numberOf]
    exact .done (h.modifyFrame f _) (some c)

theorem resolveFrame (h : Alike s s') (f : FrameKey) :
    Matches (resolveFrame f s) (resolveFrame f s') := by
  rw [Store.resolveFrame, get_bind_apply, get_bind_apply, h.frame]
  refine .ask h fun frame _ => ?_
  exact .forEach h fun c _ _ hv => hv.setReferences _ c

theorem putAll (h : Alike s s') (f : FrameKey) (registry : Registry) (config : Config)
    (collections : List (String × Buffers)) :
    Matches (putAll f registry config collections s) (putAll f registry config collections s') := by
  induction collections generalizing s s' with
  | nil => exact .answered h _
  | cons entry rest ih =>
    rcases entry with ⟨name, buffers⟩
    rw [Store.putAll, get_bind_apply, get_bind_apply, h.frame]
    refine .ask h fun frame _ => ?_
    rcases frame.ids.id? name with _ | id
    · exact .answered h _
    · refine (h.build registry buffers id config).bind fun c v v' hv => ?_
      exact (hv.put f name c).bind fun _ w w' hw => ih hw

theorem readFrameSteps (h : Alike s s') (data : FrameData) (registry : Registry)
    (config : Config) :
    Matches (readFrameSteps data registry config s) (readFrameSteps data registry config s') := by
  refine (h.newFrame config).bind fun f v v' hv => ?_
  refine .change ?_
  refine ((hv.modifyFrame f _).putAll f registry config data.collections).bind fun _ w w' hw => ?_
  exact (hw.resolveFrame f).bind fun _ _ _ hx => .done hx f

end Alike

theorem Matches.transaction {a : Action α} (h : Matches (a s) (a s')) (hs : Alike s s') :
    Matches (transaction a s) (transaction a s') := by
  rcases h.cases with ⟨answer, t, t', hrun, hrun', ht⟩
  unfold Store.transaction
  rw [hrun, hrun']
  rcases answer with e | x
  · exact .answered hs _
  · exact .answered ht _

namespace Alike

theorem readFrame (h : Alike s s') (data : FrameData) (registry : Registry) (config : Config) :
    Matches (readFrame data registry config s) (readFrame data registry config s') :=
  (h.readFrameSteps data registry config).transaction h

theorem writeStream (h : Alike s s') (config : StreamConfig) (f : FrameKey) :
    Matches (writeStream config f s) (writeStream config f s') :=
  (h.writeFrame f).bind fun _ _ _ hv => .done hv _

theorem readStream (h : Alike s s') (config : StreamConfig) (registry : Registry) (bytes : Bytes) :
    Matches (readStream config registry bytes s) (readStream config registry bytes s') := by
  unfold Store.readStream
  rcases Stream.read config bytes with e | ⟨data, rest⟩
  · exact .answered h _
  · rcases (h.readFrame data registry config.rebuildConfig).cases with
      ⟨answer, t, t', hrun, hrun', ht⟩
    dsimp only
    rw [hrun, hrun']
    rcases answer with e | f
    · exact .answered ht _
    · exact .answered ht _

end Alike

end EventModel.Store
