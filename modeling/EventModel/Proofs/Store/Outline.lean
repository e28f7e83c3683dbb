import EventModel.Proofs.Store.FrameOperations
import EventModel.Store.Ledger

/-!
# Operations that write nothing into entries

The outline of a store is what entries depend on: the type of each object and where it belongs, the
number of each collection and what it keeps of a read. Most operations leave it alone, whether they
succeed or fail; counts of handles, bodies, prepared buffers and frames are not part of it.
-/

namespace EventModel

/-- What a collection keeps of a read, as its origin tells. -/
def Collection.readState (col : Collection) : Option ReadState :=
  col.origin.map fun _ =>
    let start := if col.isSubset then .subset else .owned col.type
    if col.isUnresolved then start else start.settle

def Collection.outline (col : Collection) : CollectionId × Option ReadState :=
  (col.id, col.readState)

theorem Collection.readState_recounted (col : Collection) (id : CollectionId) (generation : Nat)
    (prepared : Option Prepared) :
    ({ col with id, generation, prepared } : Collection).readState = col.readState := by
  rcases col with ⟨type, _, config, storage, _, _, _ | ⟨_, _ | _⟩⟩ <;> rfl

theorem Collection.outline_recounted (col : Collection) (generation : Nat)
    (prepared : Option Prepared) :
    ({ col with generation, prepared } : Collection).outline = col.outline :=
  congrArg (Prod.mk col.id) (col.readState_recounted col.id generation prepared)

/-- A collection that waits for nothing is settled already. -/
theorem Collection.settle_readState {col : Collection} (h : col.isUnresolved = false) :
    col.readState.map ReadState.settle = col.readState := by
  simp [readState, h, Function.comp_def, ReadState.settle]

/-- A collection that is resolved keeps its mode and settles what waits. -/
theorem Collection.readState_resolved {col : Collection} (h : col.isUnresolved = true)
    {storage : Storage} (hmode : storage.isSubset = col.isSubset) (generation : Nat)
    (id : CollectionId) (many : Vector (List ObjectKey) col.type.toMany.length) :
    ({ col with storage, generation, origin := some ⟨id, .resolved many⟩ } : Collection).readState =
      col.readState.map ReadState.settle := by
  rcases col with ⟨type, _, config, _, _, _, _ | ⟨_, _ | _⟩⟩
  · cases h
  · simp only [isSubset] at hmode
    simp only [readState, isUnresolved, isSubset, hmode]
    rfl
  · cases h

/-- Where an object belongs, without the number of its handles. -/
def Tracking.settled : Tracking → Tracking
  | .floating _ => .floating 0
  | tracking => tracking

def Object.outline (o : Object) : DataType × Tracking :=
  (o.type, o.tracking.settled)

theorem Object.outline_acquire (o : Object) : o.acquire.outline = o.outline := by
  rcases o with ⟨type, n | ⟨c, i⟩ | _, body⟩ <;> rfl

theorem Object.outline_letGo (o : Object) : o.letGo.outline = o.outline := by
  rcases o with ⟨type, n | ⟨c, i⟩ | _, body⟩ <;> rfl

namespace Store

/-- Two stores have the same outline. -/
structure SameOutline (s s' : Store) : Prop where
  nextObject : s'.objects.next = s.objects.next
  nextCollection : s'.collections.next = s.collections.next
  objects : ∀ k, (s'.objects.get? k).map Object.outline = (s.objects.get? k).map Object.outline
  collections : ∀ c,
    (s'.collections.get? c).map Collection.outline = (s.collections.get? c).map Collection.outline

namespace SameOutline

variable {s s' s'' : Store} {k : ObjectKey} {c : CollectionKey}

theorem of_eq (hobjects : s'.objects = s.objects) (hcollections : s'.collections = s.collections) :
    SameOutline s s' where
  nextObject := by rw [hobjects]
  nextCollection := by rw [hcollections]
  objects k := by rw [hobjects]
  collections c := by rw [hcollections]

theorem refl (s : Store) : SameOutline s s :=
  of_eq rfl rfl

theorem trans (h : SameOutline s s') (h' : SameOutline s' s'') : SameOutline s s'' where
  nextObject := h'.nextObject.trans h.nextObject
  nextCollection := h'.nextCollection.trans h.nextCollection
  objects k := (h'.objects k).trans (h.objects k)
  collections c := (h'.collections c).trans (h.collections c)

/-- An object of the one store and the same object in the other. -/
theorem object (h : SameOutline s s') {o' : Object} (ho : s'.objects.get? k = some o') :
    ∃ o, s.objects.get? k = some o ∧ o.outline = o'.outline := by
  have heq := h.objects k
  rw [ho] at heq
  exact Option.map_eq_some_iff.1 heq.symm

theorem collection (h : SameOutline s s') {col' : Collection}
    (hcol : s'.collections.get? c = some col') :
    ∃ col, s.collections.get? c = some col ∧ col.outline = col'.outline := by
  have heq := h.collections c
  rw [hcol] at heq
  exact Option.map_eq_some_iff.1 heq.symm

theorem of_modifyObject {g : Object → Object} (hobjects : s'.objects = s.objects.modify k g)
    (hcollections : s'.collections = s.collections) (hg : ∀ o, (g o).outline = o.outline) :
    SameOutline s s' where
  nextObject := by rw [hobjects, Arena.next_modify]
  nextCollection := by rw [hcollections]
  objects j := by
    rw [hobjects, Arena.get?_modify]
    split
    · rw [Option.map_map]
      exact congrArg (fun f => (s.objects.get? j).map f) (funext hg)
    · rfl
  collections c := by rw [hcollections]

theorem of_modifyCollection {g : Collection → Collection} (hobjects : s'.objects = s.objects)
    (hcollections : s'.collections = s.collections.modify c g)
    (hg : ∀ col, s.collections.get? c = some col → (g col).outline = col.outline) :
    SameOutline s s' where
  nextObject := by rw [hobjects]
  nextCollection := by rw [hcollections, Arena.next_modify]
  objects k := by rw [hobjects]
  collections d := by
    rw [hcollections, Arena.get?_modify]
    split
    · rename_i heq
      subst heq
      rcases hcol : s.collections.get? c with _ | col
      · rfl
      · exact congrArg some (hg col hcol)
    · rfl

theorem withHandle (s : Store) (target : Option ObjectKey) :
    SameOutline s (s.withHandle target) := by
  rcases target with _ | k
  · exact of_eq rfl rfl
  · exact of_modifyObject (withHandle_some_objects s k) (withHandle_collections s _)
      Object.outline_acquire

theorem withoutTarget (s : Store) (h : HandleKey) (k : ObjectKey) :
    SameOutline s (s.withoutTarget h k) :=
  of_modifyObject (k := k) rfl rfl Object.outline_letGo

theorem advanceOwner (s : Store) (k : ObjectKey) : SameOutline s (s.advanceOwner k) := by
  unfold Store.advanceOwner
  split
  · exact of_modifyCollection rfl rfl fun col _ => col.outline_recounted _ _
  · exact refl s

theorem setBody {t : DataType} (s : Store) (k : ObjectKey) (body : Body t) :
    SameOutline s (s.setBody k body) := by
  refine of_modifyObject (setBody_objects s k body) rfl fun o => ?_
  split <;> rfl

theorem assignAllSingles {t : DataType} (columns : Vector (List (Option ObjectKey)) t.toOne.length)
    (position : Nat) (ks : List ObjectKey) (s : Store) :
    SameOutline s (assignAllSingles columns position ks s) := by
  induction ks generalizing position s with
  | nil => exact refl s
  | cons k rest ih =>
    have hassign : SameOutline s (assignAt columns position k s) := by
      unfold assignAt
      split
      · exact setBody s k _
      · exact refl s
    exact hassign.trans (ih _ _)

theorem appendOwned (hobjects : s'.objects = s.objects)
    (hcollections : s'.collections = s.collections.modify c (appendOwned · k)) :
    SameOutline s s' := by
  refine of_modifyCollection hobjects hcollections fun col _ => ?_
  rcases col with ⟨type, id, config, objects | slots, _, _, _ | ⟨_, _ | _⟩⟩ <;> rfl

theorem appendSlot {slot : Slot} (hobjects : s'.objects = s.objects)
    (hcollections : s'.collections = s.collections.modify c (appendSlot · slot)) :
    SameOutline s s' := by
  refine of_modifyCollection hobjects hcollections fun col _ => ?_
  rcases col with ⟨type, id, config, objects | slots, _, _, _ | ⟨_, _ | _⟩⟩ <;> rfl

end SameOutline

/-! ## Operations one by one -/

/-- The operation leaves the outline of every store alone, whether it succeeds or fails. -/
def KeepsOutline (a : Action α) : Prop :=
  ∀ s, SameOutline s (a s).2

namespace KeepsOutline

variable {α β : Type} {t : DataType}

theorem pure (x : α) : KeepsOutline (Pure.pure x : Action α) :=
  SameOutline.refl

theorem bind {a : Action α} {f : α → Action β} (ha : KeepsOutline a)
    (hf : ∀ x, KeepsOutline (f x)) : KeepsOutline (a >>= f) := fun s =>
  bind_induct (P := SameOutline s) (ha s) fun x s' _ hs' => hs'.trans (hf x s')

theorem get_bind {f : Store → Action α} (hf : ∀ s, KeepsOutline (f s)) :
    KeepsOutline (MonadState.get >>= f) :=
  bind SameOutline.refl hf

theorem ask_bind {x : Except Error α} {f : α → Action β} (hf : ∀ y, KeepsOutline (f y)) :
    KeepsOutline (liftM x >>= f) :=
  bind (fun s => by rw [ask_apply]; exact .refl s) hf

theorem refer (target : Option ObjectKey) : KeepsOutline (refer target) := fun s => by
  rw [refer_apply]
  exact .withHandle s target

theorem handleTo (t : DataType) (target : Option ObjectKey) : KeepsOutline (handleTo t target) :=
  (refer target).bind fun _ => pure _

theorem mutableHandleTo (t : DataType) (target : Option ObjectKey) :
    KeepsOutline (mutableHandleTo t target) :=
  (handleTo t target).bind fun _ => pure _

theorem erase (r : Reference) : KeepsOutline (erase r) :=
  get_bind fun _ => refer _

theorem cloneHandle (h : Handle t) : KeepsOutline (cloneHandle h) :=
  get_bind fun _ => handleTo t _

theorem cloneMutable (h : MutableHandle t) : KeepsOutline (cloneMutable h) :=
  get_bind fun _ => mutableHandleTo t _

theorem downcast (t : DataType) (r : Reference) : KeepsOutline (downcast t r) :=
  get_bind fun _ => get_bind fun _ => ask_bind fun _ => handleTo t _

theorem downcastMutable (t : DataType) (r : Reference) : KeepsOutline (downcastMutable t r) :=
  get_bind fun _ => get_bind fun _ => ask_bind fun _ => mutableHandleTo t _

theorem unlink (r : Reference) : KeepsOutline (unlink r) := fun s => by
  rw [unlink_apply]
  split
  · exact .withoutTarget s r.key _
  · exact .refl s

theorem drop (r : Reference) : KeepsOutline (drop r) :=
  (unlink r).bind fun _ _ => .of_eq rfl rfl

/-- The body of an object is not part of the outline. -/
theorem edit (h : MutableHandle t) (f : Store → ObjectKey → Body t → Except Error (Body t)) :
    KeepsOutline (edit h f) := by
  intro s
  unfold Store.edit
  split
  · exact .refl s
  · rename_i k body _
    split
    · exact .advanceOwner s k
    · exact (SameOutline.advanceOwner s k).trans (.setBody _ k _)

theorem updatePayload (h : MutableHandle t) (f : t.payload.Value → t.payload.Value) :
    KeepsOutline (updatePayload h f) :=
  edit h _

theorem addRelated (h : MutableHandle t) (relation : Nat) (target : Reference) :
    KeepsOutline (addRelated h relation target) :=
  ask_bind fun _ => get_bind fun _ => get_bind fun _ => ask_bind fun _ => edit h _

theorem clearRelated (h : MutableHandle t) (relation : Nat) :
    KeepsOutline (clearRelated h relation) :=
  ask_bind fun _ => edit h _

theorem setSingle (h : MutableHandle t) (relation : Nat) (target : Reference) :
    KeepsOutline (setSingle h relation target) := by
  intro s
  rcases setSingle_cases h relation target s with ⟨e, hrun⟩ | ⟨r, k, body, -, -, -, -, hrun⟩
  · rw [hrun]
    exact .refl s
  · rw [hrun]
    exact (SameOutline.advanceOwner s k).trans (.setBody _ k _)

theorem pushMember (h : MutableHandle t) (member : Nat) (value : t.element.Value) :
    KeepsOutline (pushMember h member value) :=
  ask_bind fun _ => edit h _

theorem setMembers (h : MutableHandle t) (member : Nat) (values : List t.element.Value) :
    KeepsOutline (setMembers h member values) :=
  ask_bind fun _ => edit h _

theorem objectAt (c : CollectionKey) (index : Nat) : KeepsOutline (objectAt c index) :=
  get_bind fun _ => ask_bind fun _ => ask_bind fun _ => refer _

theorem getObject (t : DataType) (c : CollectionKey) (index : Nat) :
    KeepsOutline (getObject t c index) :=
  get_bind fun _ => ask_bind fun _ => ask_bind fun _ => handleTo t _

theorem getMutable (t : DataType) (c : CollectionKey) (index : Nat) :
    KeepsOutline (getMutable t c index) :=
  get_bind fun _ => ask_bind fun _ => ask_bind fun _ => mutableHandleTo t _

theorem resolve (resolver : Resolver) (id : ObjectId) : KeepsOutline (resolve resolver id) :=
  get_bind fun _ => ask_bind fun _ => refer _

/-- Prepared buffers are not part of the outline. -/
theorem prepare (c : CollectionKey) : KeepsOutline (prepare c) := by
  intro s
  unfold Store.prepare
  split
  · exact .refl s
  · split
    · exact .refl s
    · split
      · exact .of_modifyCollection rfl rfl fun col _ => col.outline_recounted _ _
      · exact .of_modifyCollection rfl rfl fun col _ => col.outline_recounted _ _

theorem prepareAll (slots : List (String × CollectionKey)) : KeepsOutline (prepareAll slots) := by
  induction slots with
  | nil => exact pure _
  | cons slot rest ih => exact (prepare slot.2).bind fun _ => ih.bind fun _ => pure _

theorem writeFrame (f : FrameKey) : KeepsOutline (writeFrame f) :=
  get_bind fun _ => ask_bind fun frame => (prepareAll frame.slots).bind fun _ => pure _

theorem newFrame (config : Config) : KeepsOutline (newFrame config) := fun _ =>
  .of_eq rfl rfl

theorem modifyFrame (f : FrameKey) (g : Store → Frame → Frame) :
    KeepsOutline (modify fun s => s.modifyFrame f (g s) : Action Unit) := fun _ =>
  .of_eq rfl rfl

theorem eraseFrame (f : FrameKey) :
    KeepsOutline (modify fun s => { s with frames := s.frames.erase f } : Action Unit) := fun _ =>
  .of_eq rfl rfl

theorem setParameters (f : FrameKey) (parameters : Parameters) :
    KeepsOutline (setParameters f parameters) :=
  modifyFrame f fun _ frame => { frame with parameters }

theorem take (t : DataType) (f : FrameKey) (name : String) : KeepsOutline (take t f name) := by
  refine get_bind fun _ => ask_bind fun frame => ?_
  rcases frame.find? name with _ | ⟨position, c⟩
  · exact pure _
  · exact get_bind fun _ => ask_bind fun _ =>
      (modifyFrame f fun s frame => frame.removeAt position s.numberOf).bind fun _ => pure _

end KeepsOutline
end Store
end EventModel
