import EventModel.Proofs.Store.Ledger

/-!
# Runs of a ledger

A run of a store is one of a ledger, with the same answers. In every run the address in an entry is
the one that the store computes for its object, and an index of a relation never leads past the lists,
the places or the columns that there are.
-/

namespace EventModel.Ledger

open Store (KeepsOutline WellFormed ObjectsWellFormed)

variable {s s' : Store} {l : Ledger} {c : CollectionKey} {k : ObjectKey} {col : Collection}
  {t : DataType}

/-! ## Runs -/

/-- An operation on a ledger, and the operation on its store. -/
inductive Pairs : {α : Type} → LedgerAction α → Action α → Prop
  | keep {α : Type} {b : Action α} (h : KeepsOutline b) : Pairs (keep b) b
  | newObject (t : DataType) (payload : t.payload.Value) :
      Pairs (newObject t payload) (Store.newObject t payload)
  | newCollection (t : DataType) (subset : Bool) (config : Config) :
      Pairs (newCollection t subset config) (Store.newCollection t subset config)
  | create (t : DataType) (c : CollectionKey) (payload : t.payload.Value) :
      Pairs (create t c payload) (Store.create t c payload)
  | push {t : DataType} (c : CollectionKey) (handle : Handle t) :
      Pairs (push c handle) (Store.push c handle)
  | clear (c : CollectionKey) : Pairs (clear c) (Store.clear c)
  | discard (c : CollectionKey) : Pairs (discard c) (Store.discard c)
  | setCollectionId (c : CollectionKey) (id : CollectionId) :
      Pairs (setCollectionId c id) (Store.setCollectionId c id)
  | setSubset (c : CollectionKey) (subset : Bool) :
      Pairs (setSubset c subset) (Store.setSubset c subset)
  | rebuild (t : DataType) (b : Buffers) (id : CollectionId) (config : Config) :
      Pairs (rebuild t b id config) (Store.rebuild t b id config)
  | build (registry : Registry) (b : Buffers) (id : CollectionId) (config : Config) :
      Pairs (build registry b id config) (Store.build registry b id config)
  | setReferences (resolver : Resolver) (c : CollectionKey) :
      Pairs (setReferences resolver c) (Store.setReferences resolver c)
  | resolveAll (cs : List CollectionKey) : Pairs (resolveAll cs) (Store.resolveAll cs)
  | discardFrame (f : FrameKey) : Pairs (discardFrame f) (Store.discardFrame f)
  | put (f : FrameKey) (name : String) (c : CollectionKey) :
      Pairs (put f name c) (Store.put f name c)
  | resolveFrame (f : FrameKey) : Pairs (resolveFrame f) (Store.resolveFrame f)
  | readFrame (data : FrameData) (registry : Registry) (config : Config) (hids : data.ids.Built) :
      Pairs (readFrame data registry config) (Store.readFrame data registry config)

/-- The two operations give the same answer and leave the same store. -/
theorem Pairs.follows {a : LedgerAction α} {b : Action α} (h : Pairs a b) : Follows a b := by
  cases h with
  | discard c => exact .discard c
  | build registry b id config => exact .build registry b id config
  | resolveAll cs => exact .resolveAll cs
  | discardFrame f => exact .discardFrame f
  | put f name c => exact .put f name c
  | resolveFrame f => exact .resolveFrame f
  | readFrame data registry config _ => exact .transaction (.readFrameSteps data registry config)
  | _ => exact .record _ _

theorem Pairs.agrees {a : LedgerAction α} {b : Action α} (pair : Pairs a b) (h : l.Agrees)
    (hwell : WellFormed l.store) : (a l).2.Agrees := by
  cases pair with
  | keep hb => exact Keeps.keep hb l h
  | newObject t payload => exact Keeps.newObject t payload l h
  | newCollection t subset config => exact Keeps.newCollection t subset config l h
  | create t c payload => exact Keeps.create t c payload l h
  | push c handle => exact Keeps.push c handle l h
  | clear c => exact Keeps.clear c l h
  | discard c => exact Keeps.discard c l h
  | setCollectionId c id => exact agrees_setCollectionId h hwell.toObjectsWellFormed c id
  | setSubset c subset => exact Keeps.setSubset c subset l h
  | rebuild t b id config => exact Keeps.rebuild t b id config l h
  | build registry b id config => exact Keeps.build registry b id config l h
  | setReferences resolver c => exact Keeps.setReferences resolver c l h
  | resolveAll cs => exact Keeps.resolveAll cs l h
  | discardFrame f => exact Keeps.discardFrame f l h
  | put f name c => exact agrees_put h hwell.toObjectsWellFormed f name c
  | resolveFrame f => exact Keeps.resolveFrame f l h
  | readFrame data registry config hids => exact agrees_readFrame h hwell hids registry config

/-- Every operation on a store is one on a ledger. -/
theorem exists_pair (step : s.Step s') :
    ∃ (α : Type) (a : LedgerAction α) (b : Action α), Pairs a b ∧ s' = (b s).2 := by
  cases step with
  | newObject t payload => exact ⟨_, _, _, .newObject t payload, rfl⟩
  | emptyReference => exact ⟨_, _, _, .keep (.refer none), rfl⟩
  | refer k _ => exact ⟨_, _, _, .keep (.refer (some k)), rfl⟩
  | erase r => exact ⟨_, _, _, .keep (.erase r), rfl⟩
  | cloneHandle handle => exact ⟨_, _, _, .keep (.cloneHandle handle), rfl⟩
  | cloneMutable handle => exact ⟨_, _, _, .keep (.cloneMutable handle), rfl⟩
  | downcast t r => exact ⟨_, _, _, .keep (.downcast t r), rfl⟩
  | downcastMutable t r => exact ⟨_, _, _, .keep (.downcastMutable t r), rfl⟩
  | unlink r => exact ⟨_, _, _, .keep (.unlink r), rfl⟩
  | drop r => exact ⟨_, _, _, .keep (.drop r), rfl⟩
  | updatePayload handle f => exact ⟨_, _, _, .keep (.updatePayload handle f), rfl⟩
  | addRelated handle relation target =>
    exact ⟨_, _, _, .keep (.addRelated handle relation target), rfl⟩
  | clearRelated handle relation => exact ⟨_, _, _, .keep (.clearRelated handle relation), rfl⟩
  | setSingle handle relation target =>
    exact ⟨_, _, _, .keep (.setSingle handle relation target), rfl⟩
  | pushMember handle member value =>
    exact ⟨_, _, _, .keep (.pushMember handle member value), rfl⟩
  | setMembers handle member values =>
    exact ⟨_, _, _, .keep (.setMembers handle member values), rfl⟩
  | newCollection t subset config => exact ⟨_, _, _, .newCollection t subset config, rfl⟩
  | clear c _ => exact ⟨_, _, _, .clear c, rfl⟩
  | discard c _ => exact ⟨_, _, _, .discard c, rfl⟩
  | setCollectionId c id _ => exact ⟨_, _, _, .setCollectionId c id, rfl⟩
  | setSubset c subset _ => exact ⟨_, _, _, .setSubset c subset, rfl⟩
  | create t c payload _ => exact ⟨_, _, _, .create t c payload, rfl⟩
  | push c handle _ => exact ⟨_, _, _, .push c handle, rfl⟩
  | objectAt c index => exact ⟨_, _, _, .keep (.objectAt c index), rfl⟩
  | getObject t c index => exact ⟨_, _, _, .keep (.getObject t c index), rfl⟩
  | getMutable t c index => exact ⟨_, _, _, .keep (.getMutable t c index), rfl⟩
  | rebuild t b id config => exact ⟨_, _, _, .rebuild t b id config, rfl⟩
  | build registry b id config => exact ⟨_, _, _, .build registry b id config, rfl⟩
  | setReferences resolver c => exact ⟨_, _, _, .setReferences resolver c, rfl⟩
  | resolveAll cs => exact ⟨_, _, _, .resolveAll cs, rfl⟩
  | resolve resolver id => exact ⟨_, _, _, .keep (.resolve resolver id), rfl⟩
  | prepare c => exact ⟨_, _, _, .keep (.prepare c), rfl⟩
  | newFrame config => exact ⟨_, _, _, .keep (.newFrame config), rfl⟩
  | discardFrame f => exact ⟨_, _, _, .discardFrame f, rfl⟩
  | put f name c _ => exact ⟨_, _, _, .put f name c, rfl⟩
  | setParameters f parameters => exact ⟨_, _, _, .keep (.setParameters f parameters), rfl⟩
  | take t f name => exact ⟨_, _, _, .keep (.take t f name), rfl⟩
  | resolveFrame f => exact ⟨_, _, _, .resolveFrame f, rfl⟩
  | writeFrame f => exact ⟨_, _, _, .keep (.writeFrame f), rfl⟩
  | readFrame data registry config hids =>
    exact ⟨_, _, _, .readFrame data registry config hids, rfl⟩

/-- The ledgers that runs lead to. A collection that a frame holds is not changed from outside. -/
inductive Reachable : Ledger → Prop
  | empty : Reachable .empty
  | step {l : Ledger} (h : Reachable l) {α : Type} {a : LedgerAction α} {b : Action α}
      (pair : Pairs a b) (step : l.store.Step (b l.store).2) : Reachable (a l).2

theorem Reachable.store (h : l.Reachable) : l.store.Reachable := by
  induction h with
  | empty => exact .empty
  | @step l _ α a b pair step ih =>
    have hstore : (a l).2.store = (b l.store).2 := by rw [pair.follows l]
    rw [hstore]
    exact ih.step step

theorem Reachable.agrees (h : l.Reachable) : l.Agrees := by
  induction h with
  | empty => exact .empty
  | step h pair _ ih => exact pair.agrees ih h.store.wellFormed

/-- Every run of a store is one of a ledger. -/
theorem exists_reachable (h : s.Reachable) : ∃ l, Reachable l ∧ l.store = s := by
  induction h with
  | empty => exact ⟨.empty, .empty, rfl⟩
  | @step s s' h step ih =>
    obtain ⟨l, hl, rfl⟩ := ih
    obtain ⟨α, a, b, pair, rfl⟩ := exists_pair step
    refine ⟨(a l).2, hl.step pair step, ?_⟩
    rw [pair.follows l]

/-! ## Addresses -/

/-- An object that can be asked has an entry with its address and with all its relations. -/
theorem Agrees.entry_of_available (h : l.Agrees) (hwell : ObjectsWellFormed l.store) {o : Object}
    (ho : l.store.available (some k) = .ok o) :
    ∃ e, l.notes.entries.get? k = some e ∧ e.address = l.store.addressOf o ∧
      e.lists = o.type.toMany.length ∧ e.places = o.type.toOne.length := by
  obtain ⟨k', hk, ho, hreleased⟩ := Store.available_eq_ok ho
  cases hk
  obtain ⟨e, he, haddress, hlists, hplaces⟩ := h.entries k o ho
  rcases htracking : o.tracking with n | ⟨c, i⟩ | _ <;>
    rw [Object.outline, htracking] at haddress hlists hplaces
  · refine ⟨e, he, ?_, hlists, hplaces⟩
    rw [Store.addressOf, htracking]
    exact haddress
  · obtain ⟨col, -, hcol, -⟩ := hwell.owner k o c i ho htracking
    refine ⟨e, he, ?_, hlists, hplaces⟩
    rw [Store.addressOf_of_owned htracking hcol]
    exact haddress.2 col hcol
  · rw [Object.isReleased, htracking] at hreleased
    cases hreleased

theorem idOf_of_get? {o : Object} {e : Entry} (ho : l.store.objects.get? k = some o)
    (he : l.notes.entries.get? k = some e) :
    l.idOf (some k) = if o.isReleased then .error .unavailable else .ok e.address := by
  simp only [Ledger.idOf, Store.available, Option.bind_some, ho, he]
  rcases o.isReleased <;> rfl

theorem idOf_of_get?_eq_none (ho : l.store.objects.get? k = none) :
    l.idOf (some k) = .error .unavailable := by
  simp only [Ledger.idOf, Store.available, Option.bind_some, ho]
  rfl

/-- The address in an entry is the one that follows from the owner of the object and its position, also
after collections were numbered again. -/
theorem Reachable.idOf_eq (h : l.Reachable) (target : Option ObjectKey) :
    l.idOf target = l.store.idOf target := by
  rcases havailable : l.store.available target with e | o
  · rw [Ledger.idOf, Store.idOf, havailable]
    rfl
  · obtain ⟨k, rfl, ho, hreleased⟩ := Store.available_eq_ok havailable
    obtain ⟨e, he, haddress, -⟩ :=
      h.agrees.entry_of_available h.store.wellFormed.toObjectsWellFormed havailable
    rw [idOf_of_get? ho he, hreleased, if_neg Bool.false_ne_true, haddress, Store.idOf, havailable]
    rfl

/-- A collection that gets a number gives every object that it owns the address of its position, and
all other objects keep theirs. -/
theorem Reachable.idOf_setCollectionId (h : l.Reachable) (c : CollectionKey) (id : CollectionId)
    (k : ObjectKey) :
    (setCollectionId c id l).2.idOf (some k) =
      match l.store.tracking? k with
      | some (.owned d i) => if d = c then .ok (.ofPosition i id) else l.idOf (some k)
      | _ => l.idOf (some k) := by
  rcases ho : l.store.objects.get? k with _ | o
  · rw [Store.tracking?, ho, idOf_of_get?_eq_none ho]
    exact idOf_of_get?_eq_none ho
  · obtain ⟨e, he, -⟩ := h.agrees.entries k o ho
    have hentry := renumberAll_ownedBy h.store.wellFormed.toObjectsWellFormed ho he c id
    have hnew := idOf_of_get? (l := (setCollectionId c id l).2) ho hentry
    rw [Store.tracking?_of_get? ho, idOf_of_get? ho he, hnew]
    rcases o with ⟨type, n | ⟨d, i⟩ | _, body⟩
    · rfl
    · have howned : Object.isReleased ⟨type, .owned d i, body⟩ = false := rfl
      rw [howned, if_neg Bool.false_ne_true, if_neg Bool.false_ne_true]
      dsimp only
      split <;> rfl
    · rfl

/-- Two nodes are made before their collection has a number, and one after it. -/
example : ((do
    let c ← newCollection Store.nodeType false {}
    let _ ← create Store.nodeType c (0 : UInt8)
    let _ ← create Store.nodeType c (1 : UInt8)
    setCollectionId c ⟨7⟩
    let _ ← create Store.nodeType c (2 : UInt8) : LedgerAction Unit) .empty).2.notes.entries.slots =
      #[some ⟨⟨0, ⟨7⟩⟩, 1, 0⟩, some ⟨⟨1, ⟨7⟩⟩, 1, 0⟩, some ⟨⟨2, ⟨7⟩⟩, 1, 0⟩] := by
  decide +kernel

/-- An entry tells from its address alone whether its object counts handles. -/
theorem Reachable.isUntracked_iff (h : l.Reachable) {id : ObjectId}
    (hid : l.idOf (some k) = .ok id) :
    id.isUntracked = true ↔ ∃ n, l.store.tracking? k = some (.floating n) := by
  rw [h.idOf_eq] at hid
  obtain ⟨o, ho, hreleased, rfl⟩ := Store.idOf_eq_ok hid
  rw [Store.tracking?_of_get? ho]
  rcases htracking : o.tracking with n | ⟨c, i⟩ | _
  · refine iff_of_true ?_ ⟨n, rfl⟩
    rw [Store.addressOf, htracking]
    rfl
  · obtain ⟨col, -, hcol, -⟩ := h.store.wellFormed.owner k o c i ho htracking
    refine iff_of_false ?_ (by rintro ⟨n, ⟨⟩⟩)
    rw [Store.addressOf_of_owned htracking hcol, Store.isUntracked_ofPosition]
    exact Bool.false_ne_true
  · rw [Object.isReleased, htracking] at hreleased
    cases hreleased

/-! ## Relations -/

/-- An object that can be read has a list and a place for each relation of its type. -/
theorem Reachable.relations_of_body (h : l.Reachable) {body : Body t}
    (hbody : l.store.body t k = .ok body) :
    ∃ e, l.notes.entries.get? k = some e ∧ e.lists = t.toMany.length ∧
      e.places = t.toOne.length := by
  obtain ⟨tracking, ho, hreleased⟩ := Store.body_eq_ok_iff.1 hbody
  have havailable : l.store.available (some k) = .ok ⟨t, tracking, body⟩ := by
    simp [Store.available, ho, Object.isReleased, hreleased]
  obtain ⟨e, he, -, hlists, hplaces⟩ :=
    h.agrees.entry_of_available h.store.wellFormed.toObjectsWellFormed havailable
  exact ⟨e, he, hlists, hplaces⟩

/-- What is kept of the read of a normal collection has a column for each relation of its type, until
nothing waits. -/
theorem Reachable.columns_of_normal (h : l.Reachable) (hcol : l.store.collections.get? c = some col)
    (hnormal : col.isSubset = false) {r : ReadState}
    (hread : l.notes.reads.get? c = some (some r)) :
    r.shared = some col.type.toMany.length ∧ r.resolved = !col.isUnresolved ∧
      (r.resolved = false → r.waiting = col.type.toOne.length) := by
  have hstate := h.agrees.reads c col hcol
  rw [hread, Option.some.injEq] at hstate
  obtain ⟨origin, -, hr⟩ := Option.map_eq_some_iff.1 hstate.symm
  rw [hnormal] at hr
  rcases hwaits : col.isUnresolved <;> rw [hwaits] at hr <;> subst hr
  · exact ⟨rfl, rfl, nofun⟩
  · exact ⟨rfl, rfl, fun _ => rfl⟩

/-- An object with windows belongs to a collection that shares a column for each of them. -/
theorem Reachable.columns_of_windows (h : l.Reachable) {body : Body t}
    (hbody : l.store.body t k = .ok body) {windows : Vector Window t.toMany.length}
    (hwindows : body.toMany = .windows windows) :
    ∃ c i r, l.store.tracking? k = some (.owned c i) ∧ l.notes.reads.get? c = some (some r) ∧
      r.shared = some t.toMany.length := by
  have hwell := h.store.wellFormed
  obtain ⟨tracking, ho, hreleased⟩ := Store.body_eq_ok_iff.1 hbody
  obtain hgone | ⟨c, i, col, origin, htracking, hcol, horigin, -⟩ :=
    hwell.windows k _ windows ho hwindows
  · exact absurd hgone hreleased
  obtain ⟨htype, hstored⟩ := Store.originAs_eq_some horigin
  obtain ⟨col', objects, hcol', hstorage, -⟩ := hwell.owner k _ c i ho htracking
  cases hcol.symm.trans hcol'
  have hnormal : col.isSubset = false := by
    rw [Collection.isSubset, hstorage]
    rfl
  have hread := h.agrees.reads c col hcol
  rw [Collection.readState, hstored] at hread
  refine ⟨c, i, _, ?_, hread, ?_⟩
  · rw [Store.tracking?_of_get? ho]
    exact congrArg some htracking
  · rw [(h.columns_of_normal hcol hnormal hread).1]
    exact congrArg (fun u => some u.toMany.length) htype

end EventModel.Ledger
