import EventModel.Proofs.Store.Agreement
import EventModel.Proofs.Store.Edits

/-!
# Operations on a ledger

Each operation on a ledger answers as the one on its store and does the same to the store (`Follows`),
and what is written stays in agreement with the store, whether the operation succeeds or fails
(`Keeps`). Both are shown for what operations are put together with, and then for each operation.
-/

namespace EventModel.Ledger

open Store (SameOutline KeepsOutline WellFormed ObjectsWellFormed)

variable {α β γ : Type} {s s' : Store} {notes : Notes} {l l' : Ledger} {c : CollectionKey}
  {k : ObjectKey} {col : Collection} {t : DataType}

/-! ## Running operations -/

theorem bind_apply (a : LedgerAction α) (f : α → LedgerAction β) (l : Ledger) :
    (a >>= f) l =
      match a l with
      | (.ok x, l') => f x l'
      | (.error e, l') => (.error e, l') := by
  change (ExceptT.bind a f) l = _
  simp only [ExceptT.bind, ExceptT.mk, bind, StateT.bind]
  rcases a l with ⟨x | x, l'⟩ <;> rfl

theorem ask_apply (x : Except Error α) (l : Ledger) : (liftM x : LedgerAction α) l = (x, l) := by
  cases x <;> rfl

/-! ## The store below -/

/-- The operation answers as the one of the store, and does to the store what that one does. -/
def Follows (a : LedgerAction α) (b : Action α) : Prop :=
  ∀ l, b l.store = ((a l).1, (a l).2.store)

namespace Follows

theorem record (b : Action α) (write : Store → Store → α → Notes → Notes) :
    Follows (record b write) b := fun l => by
  unfold Ledger.record
  rcases b l.store with ⟨e | x, s⟩ <;> rfl

theorem pure (x : α) : Follows (Pure.pure x) (Pure.pure x) := fun _ => rfl

theorem throw (e : Error) : Follows (α := α) (throw e) (throw e) := fun _ => rfl

theorem bind {a : LedgerAction α} {b : Action α} {f : α → LedgerAction β} {g : α → Action β}
    (h : Follows a b) (hnext : ∀ x, Follows (f x) (g x)) : Follows (a >>= f) (b >>= g) := by
  intro l
  rw [bind_apply, Store.bind_apply, h l]
  rcases a l with ⟨e | x, l'⟩
  · rfl
  · exact hnext x l'

theorem get_bind {f : Ledger → LedgerAction β} {g : Store → Action β}
    (h : ∀ l, Follows (f l) (g l.store)) : Follows (get >>= f) (get >>= g) :=
  fun l => h l l

theorem ask_bind {x : Except Error α} {f : α → LedgerAction β} {g : α → Action β}
    (h : ∀ y, Follows (f y) (g y)) : Follows (liftM x >>= f) (liftM x >>= g) :=
  bind (fun l => by rw [ask_apply, Store.ask_apply]) h

theorem forEach {f : γ → LedgerAction Unit} {g : γ → Action Unit} (h : ∀ x, Follows (f x) (g x))
    (xs : List γ) : Follows (forEach f xs) (Store.forEach g xs) := by
  induction xs with
  | nil => exact pure ()
  | cons x rest ih => exact (h x).bind fun _ => ih

theorem discard (c : CollectionKey) : Follows (discard c) (Store.discard c) :=
  (record _ _).bind fun _ => record _ _

theorem build (registry : Registry) (b : Buffers) (id : CollectionId) (config : Config) :
    Follows (build registry b id config) (Store.build registry b id config) := by
  unfold Ledger.build Store.build
  rcases registry.find? b.type with _ | t
  · exact throw _
  · exact record _ _

theorem resolveAll (cs : List CollectionKey) : Follows (resolveAll cs) (Store.resolveAll cs) :=
  get_bind fun _ => forEach (fun _ => record _ _) _

theorem resolveFrame (f : FrameKey) : Follows (resolveFrame f) (Store.resolveFrame f) :=
  get_bind fun _ => ask_bind fun _ => forEach (fun _ => record _ _) _

theorem discardFrame (f : FrameKey) : Follows (discardFrame f) (Store.discardFrame f) := by
  refine get_bind fun l => ?_
  rcases l.store.frames.get? f with _ | frame
  · exact pure ()
  · exact (forEach discard _).bind fun _ => record _ _

theorem put (f : FrameKey) (name : String) (c : CollectionKey) :
    Follows (put f name c) (Store.put f name c) := by
  refine get_bind fun l => ask_bind fun frame => ?_
  rcases frame.accept name with e | ⟨id, ids⟩
  · exact (discard c).bind fun _ => throw e
  · exact (record _ _).bind fun _ => (record _ _).bind fun _ => pure id

theorem putAll (f : FrameKey) (registry : Registry) (config : Config)
    (collections : List (String × Buffers)) :
    Follows (putAll f registry config collections) (Store.putAll f registry config collections) := by
  induction collections with
  | nil => exact pure ()
  | cons entry rest ih =>
    refine get_bind fun l => ask_bind fun frame => ?_
    rcases frame.ids.id? entry.1 with _ | id
    · exact throw _
    · exact (build registry entry.2 id config).bind fun c => (put f entry.1 c).bind fun _ => ih

theorem readFrameSteps (data : FrameData) (registry : Registry) (config : Config) :
    Follows (readFrameSteps data registry config) (Store.readFrameSteps data registry config) :=
  (record _ _).bind fun f => (record _ _).bind fun _ =>
    (putAll f registry config data.collections).bind fun _ =>
      (resolveFrame f).bind fun _ => pure f

theorem transaction {a : LedgerAction α} {b : Action α} (h : Follows a b) :
    Follows (transaction a) (Store.transaction b) := by
  intro l
  unfold Ledger.transaction Store.transaction
  rw [h l]
  rcases a l with ⟨e | x, l'⟩ <;> rfl

end Follows

/-! ## What is written -/

/-- The operation keeps ledgers in agreement, whether it succeeds or fails. -/
def Keeps (a : LedgerAction α) : Prop :=
  ∀ l, l.Agrees → (a l).2.Agrees

theorem agrees_of_ok {b : Action α} {write : Store → Store → α → Notes → Notes} {x : α}
    (hrun : b s = (.ok x, s')) (h : Agrees ⟨s', write s s' x notes⟩) :
    (record b write ⟨s, notes⟩).2.Agrees := by
  rw [record, hrun]
  exact h

/-- Nothing is written after a failure. -/
theorem agrees_of_error {b : Action α} {write : Store → Store → α → Notes → Notes} {e : Error}
    (hrun : b s = (.error e, s')) (h : Agrees ⟨s', notes⟩) :
    (record b write ⟨s, notes⟩).2.Agrees := by
  rw [record, hrun]
  exact h

theorem agrees_bind {a : LedgerAction α} {f : α → LedgerAction β} (ha : (a l).2.Agrees)
    (hf : ∀ x l', a l = (.ok x, l') → l'.Agrees → (f x l').2.Agrees) : ((a >>= f) l).2.Agrees := by
  rw [bind_apply]
  rcases hrun : a l with ⟨e | x, l'⟩ <;> rw [hrun] at ha
  · exact ha
  · exact hf x l' hrun ha

/-! Where the addresses and the columns of an operation come from. -/

theorem isSubset_of_get? (hcol : s.collections.get? c = some col) : s.isSubset c = col.isSubset := by
  rw [Store.isSubset, hcol]
  rfl

theorem nextAddress_of_normal (hcol : s.collections.get? c = some col)
    (hnormal : col.isSubset = false) : s.nextAddress c = .ofPosition col.size col.id := by
  obtain ⟨objects, hstorage⟩ := Store.storage_of_normal hnormal
  simp [Store.nextAddress, Store.ownedBy, Store.numberOf_eq hcol, hcol, Collection.size, hstorage,
    Storage.objects, Storage.size]

theorem length_ownedBy_rebuilt {contents : Contents t} {bodies : List (Body t)}
    (config : Config) (id : CollectionId) :
    ((s.withFounded (Store.rebuiltOwned config id s.objects.next bodies.length contents)
      bodies).ownedBy s.collections.next).length = bodies.length := by
  rw [Store.ownedBy, Store.withFounded_collections, Arena.get?_insert_next]
  simp [Store.rebuiltOwned, Storage.objects]

namespace Keeps

theorem pure (x : α) : Keeps (Pure.pure x : LedgerAction α) := fun _ h => h

theorem throw (e : Error) : Keeps (throw e : LedgerAction α) := fun _ h => h

theorem bind {a : LedgerAction α} {f : α → LedgerAction β} (ha : Keeps a)
    (hf : ∀ x, Keeps (f x)) : Keeps (a >>= f) :=
  fun l h => agrees_bind (ha l h) fun x l' _ => hf x l'

theorem get_bind {f : Ledger → LedgerAction β} (h : ∀ l, Keeps (f l)) : Keeps (get >>= f) :=
  fun l => h l l

theorem ask_bind {x : Except Error α} {f : α → LedgerAction β} (h : ∀ y, Keeps (f y)) :
    Keeps (liftM x >>= f) :=
  bind (fun l hl => by rwa [ask_apply]) h

theorem forEach {f : γ → LedgerAction Unit} (h : ∀ x, Keeps (f x)) (xs : List γ) :
    Keeps (forEach f xs) := by
  induction xs with
  | nil => exact pure ()
  | cons x rest ih => exact (h x).bind fun _ => ih

/-- An operation that leaves the outline alone has nothing to write. -/
theorem keep {b : Action α} (hb : KeepsOutline b) : Keeps (keep b) := by
  rintro ⟨s, notes⟩ h
  have hsame := hb s
  rcases hrun : b s with ⟨e | x, s'⟩ <;> rw [hrun] at hsame
  · exact agrees_of_error hrun (h.of_sameOutline hsame)
  · exact agrees_of_ok hrun (h.of_sameOutline hsame)

theorem newObject (t : DataType) (payload : t.payload.Value) : Keeps (newObject t payload) := by
  rintro ⟨s, notes⟩ h
  have hentry : Entry.Fits s.collections (t, .floating 0) (.new t .untracked) := ⟨rfl, rfl, rfl⟩
  have hrun : Store.newObject t payload s = (.ok ⟨⟨⟨s.handles.next⟩⟩⟩, s.withNewObject t payload) :=
    rfl
  exact agrees_of_ok hrun ((h.addEntry (o := ⟨t, .floating 0, .ofPayload payload⟩)
    hentry).of_sameOutline (.withHandle _ _))

theorem newCollection (t : DataType) (subset : Bool) (config : Config) :
    Keeps (newCollection t subset config) :=
  fun _ h => h.addRead (.empty t subset config)

theorem create (t : DataType) (c : CollectionKey) (payload : t.payload.Value) :
    Keeps (create t c payload) := by
  rintro ⟨s, notes⟩ h
  rcases Store.create_cases t c payload s with ⟨e, hrun⟩ | ⟨col, hcol, hnormal⟩
  · exact agrees_of_error hrun h
  · have hget := (Store.collectionAs_eq_ok hcol).1
    refine agrees_of_ok (Store.create_apply hcol hnormal payload) ?_
    rw [nextAddress_of_normal hget hnormal]
    have hplaced := h.addPlaced hget col.size (Body.ofPayload payload)
    have hcreated : Agrees ⟨s.withCreated c col.size payload, _⟩ :=
      hplaced.of_sameOutline (.appendOwned rfl rfl)
    exact hcreated.of_sameOutline (.withHandle _ _)

theorem push (c : CollectionKey) (handle : Handle t) : Keeps (push c handle) := by
  rintro ⟨s, notes⟩ h
  rcases Store.push_cases c handle s with
    ⟨e, hrun⟩ | ⟨col, k, hcol, htarget, ⟨o, n, ho, -, hfloating, hnormal, hrun⟩ |
      ⟨o, owner, position, -, -, -, hsubset, hrun⟩⟩
  · exact agrees_of_error hrun h
  · refine agrees_of_ok hrun ?_
    rw [htarget]
    dsimp only
    rw [isSubset_of_get? hcol, hnormal, if_neg Bool.false_ne_true,
      nextAddress_of_normal hcol hnormal]
    exact (h.adopt hcol ho hfloating col.size).of_sameOutline (.appendOwned rfl rfl)
  · refine agrees_of_ok hrun ?_
    rw [htarget]
    dsimp only
    rw [isSubset_of_get? hcol, hsubset, if_pos rfl]
    exact h.of_sameOutline (.appendSlot rfl rfl)

theorem clear (c : CollectionKey) : Keeps (clear c) := by
  rintro ⟨s, notes⟩ h
  rcases hcol : s.collections.get? c with _ | col
  · refine agrees_of_ok (Store.clear_apply_of_none hcol) ?_
    have howned : s.ownedBy c = [] := by simp [Store.ownedBy, hcol]
    rw [howned]
    exact h.rewriteRead fun col hcol' => by cases hcol.symm.trans hcol'
  · refine agrees_of_ok (Store.clear_apply hcol) ?_
    have howned : s.ownedBy c = col.storage.objects := by simp [Store.ownedBy, hcol]
    rw [howned]
    exact (h.releaseAll _).modifyRead rfl rfl fun _ _ => ⟨rfl, rfl⟩

theorem discard (c : CollectionKey) : Keeps (discard c) :=
  (clear c).bind fun _ _ h => h.eraseCollection c

theorem setSubset (c : CollectionKey) (subset : Bool) : Keeps (setSubset c subset) := by
  rintro ⟨s, notes⟩ h
  rcases Store.setSubset_cases c subset s with
    ⟨e, hrun, -⟩ | ⟨col, hcol, ⟨hsame, hrun⟩ | ⟨hne, -, hrun⟩⟩
  · exact agrees_of_error hrun h
  · refine agrees_of_ok hrun ?_
    rw [isSubset_of_get? hcol, if_pos hsame.symm]
    exact h
  · refine agrees_of_ok hrun ?_
    rw [isSubset_of_get? hcol, if_neg (Ne.symm hne)]
    exact h.modifyRead rfl rfl fun _ _ => ⟨rfl, rfl⟩

theorem rebuild (t : DataType) (b : Buffers) (id : CollectionId) (config : Config) :
    Keeps (rebuild t b id config) := by
  rintro ⟨s, notes⟩ h
  rcases Store.rebuild_cases t b id config s with
    ⟨e, hrun⟩ | ⟨htype, ⟨ids, hsubset, hids⟩ | ⟨contents, bodies, hsubset, hdecode⟩⟩
  · exact agrees_of_error hrun h
  · refine agrees_of_ok (Store.rebuild_apply_subset htype hsubset hids) ?_
    rw [if_pos hsubset]
    exact h.addRead (Store.rebuiltSubset t config id ids)
  · refine agrees_of_ok (Store.rebuild_apply_owned htype hsubset hdecode) ?_
    rw [hsubset, if_neg Bool.false_ne_true, length_ownedBy_rebuilt]
    exact (h.addRead (Store.rebuiltOwned config id s.objects.next bodies.length contents)).addOwned
      Arena.get?_insert_next 0 bodies

theorem build (registry : Registry) (b : Buffers) (id : CollectionId) (config : Config) :
    Keeps (build registry b id config) := by
  unfold Ledger.build
  split
  · exact throw _
  · exact rebuild _ b id config

theorem setReferences (resolver : Resolver) (c : CollectionKey) :
    Keeps (setReferences resolver c) := by
  rintro ⟨s, notes⟩ h
  rcases hrun : Store.setReferences resolver c s with ⟨e | ⟨⟩, s'⟩
  · refine agrees_of_error hrun ?_
    rw [Store.setReferences_eq_error hrun]
    exact h
  · refine agrees_of_ok hrun ?_
    obtain ⟨col, hcol, ⟨hsettled, rfl⟩ | ⟨hwaits, id, ⟨objects, many, one, hstorage, rfl⟩ |
      ⟨slots, linked, many, hstorage, rfl⟩⟩⟩ := Store.setReferences_eq_ok_cases hrun
    -- nothing waits, and what is kept is written once more
    · refine h.rewriteRead fun col' hcol' => ?_
      cases hcol.symm.trans hcol'
      exact col.settle_readState hsettled
    · have hassigned := h.of_sameOutline (.assignAllSingles one 0 objects.toList s)
      refine hassigned.modifyRead rfl rfl fun col' hcol' => ?_
      rw [Store.assignAllSingles_collections] at hcol'
      cases hcol.symm.trans hcol'
      rw [Store.withColumns_self]
      exact ⟨rfl, Collection.readState_resolved hwaits rfl _ id many⟩
    · refine h.modifyRead rfl rfl fun col' hcol' => ?_
      cases hcol.symm.trans hcol'
      rw [Store.withColumns_self]
      have hmode : (Storage.subset linked).isSubset = col.isSubset := by
        rw [Collection.isSubset, hstorage]
        rfl
      exact ⟨rfl, Collection.readState_resolved hwaits hmode _ id many⟩

theorem resolveAll (cs : List CollectionKey) : Keeps (resolveAll cs) :=
  get_bind fun _ => forEach (setReferences _) _

theorem resolveFrame (f : FrameKey) : Keeps (resolveFrame f) :=
  get_bind fun _ => ask_bind fun _ => forEach (setReferences _) _

theorem discardFrame (f : FrameKey) : Keeps (discardFrame f) := by
  refine get_bind fun l => ?_
  split
  · exact pure ()
  · exact (forEach discard _).bind fun _ => keep (.eraseFrame f)

end Keeps

/-! ## Operations that renumber

A loop over the objects of a collection can only give each its own position because the collection
lists it once, so these operations need a store that is well-formed.
-/

theorem get_bind_apply (f : Ledger → LedgerAction α) (l : Ledger) : (get >>= f) l = f l l := rfl

theorem agrees_ask_bind {x : Except Error α} {f : α → LedgerAction β} (h : l.Agrees)
    (hf : ∀ y, x = .ok y → (f y l).2.Agrees) : ((liftM x >>= f) l).2.Agrees := by
  rw [bind_apply, ask_apply]
  rcases x with e | y
  · exact h
  · exact hf y rfl

theorem Follows.store_of_ok {a : LedgerAction α} {b : Action α} (h : Follows a b) {x : α}
    (hrun : a l = (.ok x, l')) : b l.store = (.ok x, l'.store) := by
  rw [h l, hrun]

theorem agrees_setCollectionId (h : l.Agrees) (hwell : ObjectsWellFormed l.store)
    (c : CollectionKey) (id : CollectionId) : (setCollectionId c id l).2.Agrees :=
  h.setCollectionId hwell c id

theorem agrees_put (h : l.Agrees) (hwell : ObjectsWellFormed l.store) (f : FrameKey)
    (name : String) (c : CollectionKey) : (put f name c l).2.Agrees := by
  rw [put, get_bind_apply]
  refine agrees_ask_bind h fun frame _ => ?_
  rcases frame.accept name with e | ⟨id, ids⟩
  · exact (Keeps.discard c).bind (fun _ => .throw e) l h
  · refine agrees_bind (agrees_setCollectionId h hwell c id) fun _ l' _ h' => ?_
    exact (Keeps.keep (.modifyFrame f _)).bind (fun _ => .pure id) l' h'

/-- Every collection is new when it is put into the frame, so the store stays well-formed. -/
theorem agrees_putAll (h : l.Agrees) (hwell : WellFormed l.store) (f : FrameKey)
    (registry : Registry) (config : Config) (collections : List (String × Buffers)) :
    (putAll f registry config collections l).2.Agrees := by
  induction collections generalizing l with
  | nil => exact h
  | cons entry rest ih =>
    obtain ⟨name, buffers⟩ := entry
    rw [putAll, get_bind_apply]
    refine agrees_ask_bind h fun frame _ => ?_
    rcases frame.ids.id? name with _ | id
    · exact h
    · dsimp only
      refine agrees_bind (Keeps.build registry buffers id config l h) fun c l₁ hrun₁ h₁ => ?_
      have hbuilt := (Follows.build registry buffers id config).store_of_ok hrun₁
      obtain ⟨hbuild, hframes, hfresh⟩ :=
        Store.build_changes (s := l.store) registry buffers id config
      rw [hbuilt] at hbuild hframes hfresh
      obtain ⟨rfl, col, hcol⟩ := hfresh c rfl
      have hwell₁ := hbuild.wellFormed hwell
      refine agrees_bind (agrees_put h₁ hwell₁.toObjectsWellFormed f name _) fun _ l₂ hrun₂ h₂ => ?_
      -- no frame can hold a key that was still free before the collection was built
      have hunheld : l₁.store.IsUnheld l.store.collections.next := by
        intro f' frame' name' hframe'
        rw [show l₁.store.frames = l.store.frames from hframes] at hframe'
        exact Store.isUnheld_of_next_le hwell (Nat.le_refl _) f' frame' name' hframe'
      have hput := Store.put_changes_of_ok (Store.isLoose_of_get? hunheld hcol)
        ((Follows.put f name _).store_of_ok hrun₂)
      exact ih h₂ (hput.wellFormed hwell₁)

theorem agrees_readFrame (h : l.Agrees) (hwell : WellFormed l.store) {data : FrameData}
    (hids : data.ids.Built) (registry : Registry) (config : Config) :
    (readFrame data registry config l).2.Agrees := by
  have hsteps : (readFrameSteps data registry config l).2.Agrees := by
    have hwell' := (Store.withNewFrame_changes config hids).wellFormed hwell
    -- the frame starts with the table of the data, before anything is put into it
    have hnew : (⟨l.store.withNewFrame config data, l.notes⟩ : Ledger).Agrees :=
      h.of_sameOutline (.of_eq rfl rfl)
    change ((putAll l.store.frames.next registry config data.collections >>= fun _ =>
      resolveFrame l.store.frames.next >>= fun _ => pure l.store.frames.next)
        ⟨l.store.withNewFrame config data, l.notes⟩).2.Agrees
    refine agrees_bind (agrees_putAll hnew hwell' _ registry config data.collections)
      fun _ l' _ h' => ?_
    exact (Keeps.resolveFrame _).bind (fun _ => .pure _) l' h'
  unfold readFrame transaction
  rcases hrun : readFrameSteps data registry config l with ⟨e | f, l'⟩ <;> rw [hrun] at hsteps
  · exact h
  · exact hsteps

end EventModel.Ledger
