import EventModel.Store.Rebuild

/-!
# Resolution of stored addresses

`setReferences` replaces every stored address of a rebuilt collection by a link to the object that a
resolver finds for it. Every address is looked up before anything is replaced, so a failure changes
nothing.
-/

namespace EventModel

/-- Finds the collection with a number. -/
abbrev Resolver := CollectionId → Option CollectionKey

namespace Store

/-- The object with an address. -/
def resolveObject (s : Store) (resolver : Resolver) (id : ObjectId) : Except Error ObjectKey :=
  match resolver id.collection with
  | none => .error (.danglingReference id.collection)
  | some c => do
    let collection ← s.collection c
    match id.position? with
    | none => throw (.indexOutOfRange id.index.toInt collection.size)
    | some position => objectAtPosition collection position

/-- The object with an address, which must be of the type with the given name. -/
def resolveTyped (s : Store) (resolver : Resolver) (type : String) (id : ObjectId) :
    Except Error ObjectKey := do
  let k ← s.resolveObject resolver id
  match s.typeName? (some k) with
  | some found => if found = type then return k else throw (.typeMismatch type found)
  | none => return k

/-- The object of a to-many relation or of a place in a subset collection, which must have one. -/
def resolveRequired (s : Store) (resolver : Resolver) (source type : String) (id : ObjectId) :
    Except Error ObjectKey :=
  if id.isUntracked then
    .error (.corruptBuffer ("untracked id stored in a " ++ source ++ " relation to " ++ type))
  else s.resolveTyped resolver type id

/-- The object of a to-one relation, if it is set. -/
def resolveOptional (s : Store) (resolver : Resolver) (type : String) (id : ObjectId) :
    Except Error (Option ObjectKey) :=
  if id.isUntracked then .ok none else some <$> s.resolveTyped resolver type id

/-- The object of a place in a subset collection of type `t`. -/
def resolveSlot (s : Store) (resolver : Resolver) (t : DataType) : Slot → Except Error ObjectKey
  | .linked k => .ok k
  | .pending id => do
    let k ← s.resolveRequired resolver t.name t.name id
    s.expectType t (some k)

/-- Sets the to-one relations of the object at a position to what was stored for it. -/
def assignSingles {t : DataType} (columns : Vector (List (Option ObjectKey)) t.toOne.length)
    (position : Nat) (body : Body t) : Body t :=
  { body with
    toOne := Vector.ofFn fun r =>
      match columns[r][position]? with
      | some place => place
      | none => body.toOne[r] }

/-- Sets the to-one relations of the objects from a position on. -/
def assignAllSingles {t : DataType}
    (columns : Vector (List (Option ObjectKey)) t.toOne.length) :
    Nat → List ObjectKey → Store → Store
  | _, [], s => s
  | position, k :: rest, s =>
    let s := match s.body t k with
      | .ok body => s.setBody k (assignSingles columns position body)
      | .error _ => s
    assignAllSingles columns (position + 1) rest s

/-- The collection with resolved columns in the place of the stored ones. -/
def withColumns (collection : Collection) {t : DataType} (origin : Origin t) : Collection :=
  if h : collection.type = t then { collection with origin := some (h ▸ origin) }.advance
  else collection

/-- A computation without effect as an operation. -/
def liftExcept (x : Except Error α) : Action α := fun s =>
  (x, s)

/-- Replaces the stored addresses of a collection by links. A collection that waits for nothing is
left as it is. -/
def setReferences (resolver : Resolver) (c : CollectionKey) : Action Unit := do
  let collection ← (← get).collection c
  let t := collection.type
  match collection.originAs t with
  | some ⟨id, .stored toMany toOne⟩ =>
    match collection.storage with
    | .subset slots =>
      let s ← get
      let linked ← liftExcept (slots.toList.mapM (s.resolveSlot resolver t))
      let columns : Columns t := .resolved (Vector.replicate _ [])
      modify fun s => s.modifyCollection c fun collection =>
        { withColumns collection ⟨id, columns⟩ with
          storage := .subset (linked.map Slot.linked).toArray }
    | .owned objects =>
      let s ← get
      let many ← tryOfFn fun r : Fin t.toMany.length =>
        toMany[r].mapM (s.resolveRequired resolver t.name (t.toMany.get r).target)
      let one ← tryOfFn fun r : Fin t.toOne.length =>
        toOne[r].mapM (s.resolveOptional resolver (t.toOne.get r).target)
      modify fun s =>
        (assignAllSingles one 0 objects.toList s).modifyCollection c fun collection =>
          withColumns collection ⟨id, .resolved many⟩
  | _ => return

/-! ## Resolvers -/

/-- Knows some collections by their current numbers; of two with one number the later counts. -/
def resolverOf (s : Store) (collections : List CollectionKey) : Resolver :=
  let known := collections.reverse.filterMap fun c =>
    (s.collections.get? c).map fun collection => (collection.id, c)
  fun id => known.lookup id

/-- Runs an operation on each element; the first failure ends the run. -/
def forEach (f : α → Action Unit) : List α → Action Unit
  | [] => return
  | x :: rest => do
    f x
    forEach f rest

/-- The numbers of some collections, ascending and without repetition. -/
def collectionIds (s : Store) (collections : List CollectionKey) : List CollectionId :=
  let ids := collections.filterMap fun c => (s.collections.get? c).map Collection.id
  ids.eraseDups.mergeSort fun a b => a.val ≤ b.val

/-- Resolves the collections that a resolver over `collections` knows, by ascending numbers. -/
def resolveAll (collections : List CollectionKey) : Action Unit := do
  let s ← get
  let resolver := s.resolverOf collections
  forEach (setReferences resolver) ((s.collectionIds collections).filterMap resolver)

/-- A reference to the object with an address. -/
def resolve (resolver : Resolver) (id : ObjectId) : Action Reference := do
  let k ← (← get).resolveObject resolver id
  refer (some k)

end Store

end EventModel
