import EventModel.Store.Basic
import EventModel.Store.Collect

/-!
# Handles

A handle gives access to one object; a reference points at an object of any type. Each is counted
by a floating object, so whoever makes one has to `drop` it. A handle may be empty or unlinked, and
then every access fails as it does on a released object.

A `MutableHandle` is a `Handle` that may also change its object, and a `Handle` is a `Reference`
whose target has a known type; only `Store.downcast` goes the other way.
-/

namespace EventModel

/-- Points at an object of any type. -/
structure Reference where
  key : HandleKey
  deriving DecidableEq, Repr

/-- Reads an object of type `t`. -/
structure Handle (t : DataType) extends Reference
  deriving DecidableEq, Repr

/-- Reads and changes an object of type `t`. -/
structure MutableHandle (t : DataType) extends Handle t
  deriving DecidableEq, Repr

/-- An index as one below `n`. -/
def checkIndex (index n : Nat) : Except Error (Fin n) :=
  if h : index < n then .ok ⟨index, h⟩ else .error (.outOfRange index n)

namespace Store

/-! ## Making and dropping handles -/

/-- A new handle that points at `target`. -/
def hold (target : Option ObjectKey) : Action HandleKey := do
  let h := (← get).handles.next
  modify fun s => { s with handles := s.handles.insert target }
  if let some k := target then modify fun s => s.modifyObject k Object.acquire
  return h

/-- What a handle points at. -/
def target (s : Store) (r : Reference) : Option ObjectKey :=
  (s.handles.get? r.key).join

/-- The handle no longer points at its object. Other handles are not affected. -/
def unlink (r : Reference) : Action Unit := fun s =>
  match s.target r with
  | some k =>
    (.ok (), { s with handles := s.handles.modify r.key fun _ => none }.modifyObject k Object.letGo)
  | none => (.ok (), s)

/-- Gives a handle back. -/
def drop (r : Reference) : Action Unit := do
  unlink r
  modify fun s => { s with handles := s.handles.erase r.key }

/-- A reference to `target`. -/
def refer (target : Option ObjectKey) : Action Reference :=
  return ⟨← hold target⟩

/-- A handle for an object of type `t`. -/
def handleTo (t : DataType) (target : Option ObjectKey) : Action (Handle t) :=
  return ⟨← refer target⟩

/-- A handle that can change its target. -/
def mutableHandleTo (t : DataType) (target : Option ObjectKey) : Action (MutableHandle t) :=
  return ⟨← handleTo t target⟩

/-- A new floating object with one handle. -/
def newObject (t : DataType) (payload : t.payload.Value) : Action (MutableHandle t) := do
  let s ← get
  let k := s.objects.next
  set { s with objects := s.objects.insert ⟨t, .floating 0, .ofPayload payload⟩ }
  mutableHandleTo t (some k)

/-- Another reference to the same object. -/
def erase (r : Reference) : Action Reference := do
  refer ((← get).target r)

/-- Another handle to the same object. -/
def cloneHandle (h : Handle t) : Action (Handle t) := do
  handleTo t ((← get).target h.toReference)

/-- One more handle to the same target. -/
def cloneMutable (h : MutableHandle t) : Action (MutableHandle t) := do
  mutableHandleTo t ((← get).target h.toReference)

/-! ## Questions about a target -/

/-- The object is there and was not released. -/
def isAvailable (s : Store) (target : Option ObjectKey) : Bool :=
  match target.bind s.objects.get? with
  | some o => !o.isReleased
  | none => false

/-- The object itself, unless it was released. -/
def available (s : Store) (target : Option ObjectKey) : Except Error Object :=
  match target.bind s.objects.get? with
  | some o => if o.isReleased then .error .unavailable else .ok o
  | none => .error .unavailable

/-- The address of the object. -/
def idOf (s : Store) (target : Option ObjectKey) : Except Error ObjectId :=
  (s.available target).map s.addressOf

/-- The name of the object's type; a released object still has one. -/
def typeName? (s : Store) (target : Option ObjectKey) : Option String :=
  (target.bind s.objects.get?).map (·.type.name)

/-- A collection owns the object. -/
def isTracked (s : Store) (target : Option ObjectKey) : Bool :=
  match s.idOf target with
  | .ok id => !id.isUntracked
  | .error _ => false

/-- The number of handles of a floating object; objects of other kinds do not count theirs. -/
def handlesOfFloating? (s : Store) (target : Option ObjectKey) : Option Nat :=
  match target.bind s.objects.get? with
  | some ⟨_, .floating handles, _⟩ => some handles.toNat
  | _ => none

/-- The object as one of type `t`. -/
def expectType (s : Store) (t : DataType) (target : Option ObjectKey) : Except Error ObjectKey :=
  match target with
  | none => .error .unavailable
  | some k => do
    let o ← s.object k
    if o.type = t then return k else throw (.typeMismatch t.name o.type.name)

/-- The text of a typed handle. -/
def handleText (s : Store) (t : DataType) (target : Option ObjectKey) : String :=
  "Handle<" ++ t.name ++ ">("
    ++ (match s.idOf target with
      | .ok id => id.text
      | .error _ => "unavailable")
    ++ ")"

/-- The text of a reference. -/
def referenceText (s : Store) (target : Option ObjectKey) : String :=
  match s.typeName? target, s.idOf target with
  | some name, .ok id => "ObjectRef<" ++ name ++ ">(" ++ id.text ++ ")"
  | _, _ => "ObjectRef(unavailable)"

/-- A typed handle that points at what a reference points at. -/
def downcast (t : DataType) (r : Reference) : Action (Handle t) := do
  let k ← (← get).expectType t ((← get).target r)
  handleTo t (some k)

/-- The handle that can change a target, if the target has type `t`. -/
def downcastMutable (t : DataType) (r : Reference) : Action (MutableHandle t) := do
  let k ← (← get).expectType t ((← get).target r)
  mutableHandleTo t (some k)

/-! ## Reading an object -/

/-- The body behind a handle for objects of type `t`. -/
def bodyOf (s : Store) (t : DataType) (target : Option ObjectKey) :
    Except Error (ObjectKey × Body t) :=
  match target with
  | none => .error .unavailable
  | some k => do return (k, ← s.body t k)

/-- The payload of a target. -/
def payload (s : Store) (t : DataType) (target : Option ObjectKey) :
    Except Error t.payload.Value := do
  return (← s.bodyOf t target).2.payload

/-- The elements of a vector member. -/
def members (s : Store) (t : DataType) (target : Option ObjectKey) (member : Nat) :
    Except Error (List t.element.Value) := do
  let m ← checkIndex member t.members.length
  return (← s.bodyOf t target).2.members[m]

/-- The columns that the windows of an object select from. -/
def originOf (s : Store) (t : DataType) (k : ObjectKey) : Except Error (Origin t) := do
  let o ← s.object k
  match o.owner? with
  | none => throw .unavailable
  | some owner =>
    match (← s.collection owner).originAs t with
    | some origin => return origin
    | none => throw .unavailable

/-- The objects that a to-many relation leads to. -/
def links (s : Store) {t : DataType} (k : ObjectKey) (body : Body t)
    (r : Fin t.toMany.length) : Except Error (List ObjectKey) :=
  match body.toMany with
  | .lists lists => .ok lists[r]
  | .windows windows => do
    let origin ← s.originOf t k
    match origin.columns with
    | .stored _ _ => throw (.unresolvedReferences t.name origin.id)
    | .resolved columns => windows[r].slice columns[r]

/-- The objects of a to-many relation; an object that no longer exists leaves an empty place. -/
def related (s : Store) (t : DataType) (target : Option ObjectKey) (relation : Nat) :
    Except Error (List (Option ObjectKey)) := do
  let r ← checkIndex relation t.toMany.length
  let (k, body) ← s.bodyOf t target
  return (← s.links k body r).map fun k => if s.existsObject k then some k else none

/-- The length of a to-many relation, which is known before resolution. -/
def relatedSize (s : Store) (t : DataType) (target : Option ObjectKey) (relation : Nat) :
    Except Error Nat := do
  let r ← checkIndex relation t.toMany.length
  let (_, body) ← s.bodyOf t target
  match body.toMany with
  | .lists lists => return lists[r].length
  | .windows windows => return windows[r].size

/-- The object of a to-one relation: nothing if it was never set, and an empty place if the object
no longer exists. -/
def single (s : Store) (t : DataType) (target : Option ObjectKey) (relation : Nat) :
    Except Error (Option (Option ObjectKey)) := do
  let r ← checkIndex relation t.toOne.length
  let (_, body) ← s.bodyOf t target
  match body.toOne[r] with
  | none => return none
  | some k => return some (if s.existsObject k then some k else none)

/-- The objects of a to-many relation as ones of type `u`. -/
def relatedAs (s : Store) (t u : DataType) (target : Option ObjectKey) (relation : Nat) :
    Except Error (List ObjectKey) := do
  (← s.related t target relation).mapM (s.expectType u)

/-- The object of a to-one relation as one of type `u`. -/
def singleAs (s : Store) (t u : DataType) (target : Option ObjectKey) (relation : Nat) :
    Except Error (Option ObjectKey) := do
  match ← s.single t target relation with
  | none => return none
  | some place => return some (← s.expectType u place)

/-! ## Handles to related objects

The functions above answer for objects; the operations here make the handles. A typed handle is made
from a temporary reference, which counts like any other until it is given back.
-/

/-- A reference to each place, in order. -/
def referAll : List (Option ObjectKey) → Action (List Reference)
  | [] => return []
  | place :: rest => do
    let r ← refer place
    return r :: (← referAll rest)

/-- Gives references back, one after the other. -/
def dropAll : List Reference → Action Unit
  | [] => return
  | r :: rest => do
    drop r
    dropAll rest

/-- Gives temporary references back after an operation, whether it succeeds or fails. -/
def thenDrop (temporaries : List Reference) (action : Action α) : Action α := fun s =>
  match action s with
  | (result, s') => (result, (dropAll temporaries s').2)

/-- Gives a reference back if an operation fails. -/
def dropOnFailure (r : Reference) (action : Action α) : Action α := fun s =>
  match action s with
  | (.ok x, s') => (.ok x, s')
  | (.error e, s') => (.error e, (drop r s').2)

/-- Typed handles to the targets of references; a failure gives back the handles made so far. -/
def downcastAll (u : DataType) : List Reference → Action (List (Handle u))
  | [] => return []
  | r :: rest => do
    let h ← downcast u r
    dropOnFailure h.toReference do
      return h :: (← downcastAll u rest)

/-- References to the objects of a to-many relation. -/
def relatedReferences (h : Handle t) (relation : Nat) : Action (List Reference) := do
  let s ← get
  referAll (← s.related t (s.target h.toReference) relation)

/-- Typed handles to the objects of a to-many relation. -/
def relatedHandles (u : DataType) (h : Handle t) (relation : Nat) : Action (List (Handle u)) := do
  let references ← relatedReferences h relation
  thenDrop references (downcastAll u references)

/-- A reference to the object of a to-one relation, if the relation is set. -/
def singleReference (h : Handle t) (relation : Nat) : Action (Option Reference) := do
  let s ← get
  match ← s.single t (s.target h.toReference) relation with
  | none => return none
  | some place => return some (← refer place)

/-- A typed handle to the object of a to-one relation, if the relation is set. -/
def singleHandle (u : DataType) (h : Handle t) (relation : Nat) : Action (Option (Handle u)) := do
  match ← singleReference h relation with
  | none => return none
  | some r => thenDrop [r] (some <$> downcast u r)

/-! ## Changing an object -/

/-- Write access to the object behind a handle. The collection that owns the object counts a change
even if the edit then fails; the body changes only if it succeeds. -/
def edit (h : MutableHandle t) (f : Store → ObjectKey → Body t → Except Error (Body t)) :
    Action Unit := fun s =>
  match s.bodyOf t (s.target h.toReference) with
  | .error e => (.error e, s)
  | .ok (k, body) =>
    match f s k body with
    | .error e => (.error e, s.advanceOwner k)
    | .ok changed => (.ok (), (s.advanceOwner k).setBody k changed)

/-- Changes the payload by a function. -/
def updatePayload (h : MutableHandle t) (f : t.payload.Value → t.payload.Value) : Action Unit :=
  edit h fun _ _ body => .ok { body with payload := f body.payload }

/-- Replaces the payload. -/
def setPayload (h : MutableHandle t) (payload : t.payload.Value) : Action Unit :=
  updatePayload h fun _ => payload

/-- The relations of an object as lists of its own, copied from the columns if need be. -/
def ownLists (s : Store) {t : DataType} (k : ObjectKey) (body : Body t) :
    Except Error (Vector (List ObjectKey) t.toMany.length) :=
  match body.toMany with
  | .lists lists => .ok lists
  | .windows _ => tryOfFn fun r => s.links k body r

/-- A target must be available and of the type that the relation declares. -/
def checkTarget (s : Store) (target : Option ObjectKey) (expected : String) :
    Except Error ObjectKey :=
  match target with
  | none => .error .unavailable
  | some k => do
    let o ← s.available (some k)
    if o.type.name = expected then return k else throw (.typeMismatch expected o.type.name)

/-- Appends an object to a to-many relation. -/
def addRelated (h : MutableHandle t) (relation : Nat) (target : Reference) : Action Unit := do
  let r ← checkIndex relation t.toMany.length
  let k ← (← get).checkTarget ((← get).target target) (t.toMany.get r).target
  edit h fun s own body => do
    let lists ← s.ownLists own body
    return { body with toMany := .lists (setAt lists r (lists[r] ++ [k])) }

/-- Removes every object from a to-many relation. -/
def clearRelated (h : MutableHandle t) (relation : Nat) : Action Unit := do
  let r ← checkIndex relation t.toMany.length
  edit h fun s own body => do
    let lists ← s.ownLists own body
    return { body with toMany := .lists (setAt lists r []) }

/-- Sets a to-one relation; an empty reference clears it. -/
def setSingle (h : MutableHandle t) (relation : Nat) (target : Reference) : Action Unit := do
  let r ← checkIndex relation t.toOne.length
  let place ← match (← get).target target with
    | none => pure none
    | some k => some <$> (← get).checkTarget (some k) (t.toOne.get r).target
  edit h fun _ _ body => .ok { body with toOne := setAt body.toOne r place }

/-- Appends an element to a vector member. -/
def pushMember (h : MutableHandle t) (member : Nat) (value : t.element.Value) : Action Unit := do
  let m ← checkIndex member t.members.length
  edit h fun _ _ body =>
    .ok { body with members := setAt body.members m (body.members[m] ++ [value]) }

/-- Replaces the elements of a vector member. -/
def setMembers (h : MutableHandle t) (member : Nat) (values : List t.element.Value) :
    Action Unit := do
  let m ← checkIndex member t.members.length
  edit h fun _ _ body => .ok { body with members := setAt body.members m values }

end Store

end EventModel
