import EventModel.Proofs.Store.Cache
import EventModel.Proofs.Store.Lifecycle

/-!
# Identity and ownership

A normal collection owns the objects that it lists, and an object that is owned is listed once. Its
address is its position together with the number of the collection. A subset collection owns nothing,
so that whatever is done to it no object changes its address.
-/

namespace EventModel.Store

variable {s s' : Store} {past : List Store} {c : CollectionKey}

/-! ## The address of an object -/

theorem isUntracked_ofPosition (i : Nat) (id : CollectionId) :
    (ObjectId.ofPosition i id).isUntracked = false := by
  have hmin : ObjectId.untrackedIndex.toInt = -2 ^ 63 := by decide
  rw [ObjectId.isUntracked, beq_eq_false_iff_ne]
  intro heq
  have hindex := congrArg Int64.toInt heq
  rw [hmin, ObjectId.ofPosition] at hindex
  split at hindex
  · rename_i hlt
    rw [Int64.toInt_ofNat_of_lt hlt] at hindex
    omega
  · have hmax : Int64.maxValue.toInt = 2 ^ 63 - 1 := by decide
    rw [hmax] at hindex
    omega

theorem idOf_of_floating {k : ObjectKey} {n : UInt32}
    (h : s.tracking? k = some (.floating n)) : s.idOf (some k) = .ok .untracked := by
  obtain ⟨o, ho, htracking⟩ := tracking?_eq_some_iff.1 h
  simp [idOf, available, ho, Object.isReleased, htracking, Except.map, addressOf]

theorem WellFormed.idOf_of_owned (h : WellFormed s) {k : ObjectKey} {i : Nat}
    (hk : s.tracking? k = some (.owned c i)) :
    ∃ col, s.collections.get? c = some col ∧ s.idOf (some k) = .ok (.ofPosition i col.id) := by
  obtain ⟨o, ho, htracking⟩ := tracking?_eq_some_iff.1 hk
  obtain ⟨col, -, hcol, -⟩ := h.owner k o c i ho htracking
  refine ⟨col, hcol, ?_⟩
  simp [idOf, available, ho, Object.isReleased, htracking, Except.map,
    addressOf_of_owned htracking hcol]

theorem isAvailable_iff {k : ObjectKey} :
    s.isAvailable (some k) = true ↔
      ∃ tracking, s.tracking? k = some tracking ∧ tracking ≠ .released := by
  rcases ho : s.objects.get? k with _ | o
  · simp [isAvailable, tracking?, ho]
  · simp [isAvailable, tracking?, ho, Object.isReleased]

/-- Only floating objects are untracked. -/
theorem WellFormed.idOf_eq_untracked_iff (h : WellFormed s) {k : ObjectKey} :
    s.idOf (some k) = .ok .untracked ↔ ∃ n, s.tracking? k = some (.floating n) := by
  constructor
  · intro hid
    obtain ⟨o, ho, hreleased, -⟩ := idOf_eq_ok hid
    have hk := tracking?_of_get? ho
    rcases htracking : o.tracking with n | ⟨c, i⟩ | _
    · exact ⟨n, by rw [hk, htracking]⟩
    · rw [htracking] at hk
      obtain ⟨col, -, howned⟩ := h.idOf_of_owned hk
      rw [howned] at hid
      have huntracked := isUntracked_ofPosition i col.id
      rw [Except.ok.inj hid] at huntracked
      cases huntracked
    · rw [Object.isReleased, htracking] at hreleased
      cases hreleased
  · rintro ⟨n, hn⟩
    exact idOf_of_floating hn

/-- Only objects that a collection owns are tracked. -/
theorem WellFormed.isTracked_iff (h : WellFormed s) {k : ObjectKey} :
    s.isTracked (some k) = true ↔ ∃ c i, s.tracking? k = some (.owned c i) := by
  constructor
  · intro htracked
    unfold isTracked at htracked
    split at htracked
    · rename_i id hid
      obtain ⟨o, ho, -, haddress⟩ := idOf_eq_ok hid
      rw [← haddress, Bool.not_eq_true'] at htracked
      obtain ⟨c, i, -, htracking, -⟩ := owned_of_addressOf htracked
      exact ⟨c, i, by rw [tracking?_of_get? ho, htracking]⟩
    · cases htracked
  · rintro ⟨c, i, hk⟩
    obtain ⟨col, -, hid⟩ := h.idOf_of_owned hk
    rw [isTracked, hid]
    exact congrArg not (isUntracked_ofPosition i col.id)

/-! ## What happens to a subset collection -/

/-- An operation on the collection `c`, which may also be the one that makes it. -/
inductive ActsOn (s : Store) (c : CollectionKey) : Store → Prop
  | newSubset (t : DataType) (config : Config) (hnext : c = s.collections.next) :
      ActsOn s c (newCollection t true config s).2
  | rebuildSubset (t : DataType) (b : Buffers) (id : CollectionId) (config : Config)
      (hnext : c = s.collections.next) (hb : b.subset = true) :
      ActsOn s c (rebuild t b id config s).2
  | create (t : DataType) (payload : t.payload.Value) : ActsOn s c (create t c payload s).2
  | push {t : DataType} (handle : Handle t) : ActsOn s c (push c handle s).2
  | clear : ActsOn s c (clear c s).2
  | discard : ActsOn s c (discard c s).2
  | setCollectionId (id : CollectionId) : ActsOn s c (setCollectionId c id s).2
  | setSubset (subset : Bool) : ActsOn s c (setSubset c subset s).2
  | setReferences (resolver : Resolver) : ActsOn s c (setReferences resolver c s).2
  | prepare : ActsOn s c (prepare c s).2
  | objectAt (index : Nat) : ActsOn s c (objectAt c index s).2
  | getObject (t : DataType) (index : Nat) : ActsOn s c (getObject t c index s).2
  | getMutable (t : DataType) (index : Nat) : ActsOn s c (getMutable t c index s).2
  | put (f : FrameKey) (name : String) : ActsOn s c (put f name c s).2
  | take (t : DataType) (f : FrameKey) (name : String) : ActsOn s c (take t f name s).2

/-- No object and no other collection has changed, but for the numbers of handles. -/
structure Spares (c : CollectionKey) (s s' : Store) : Prop where
  objects : ∀ k, (s'.objects.get? k).map Object.settled = (s.objects.get? k).map Object.settled
  others : ∀ d, d ≠ c → s'.collections.get? d = s.collections.get? d

namespace Spares

theorem refl (c : CollectionKey) (s : Store) : Spares c s s :=
  ⟨fun _ => rfl, fun _ _ => rfl⟩

theorem withHandle (target : Option ObjectKey) : Spares c s (s.withHandle target) :=
  ⟨(quiet_withHandle s target).objects, fun d _ => by rw [withHandle_collections]⟩

theorem of_modify {f : Collection → Collection} (hobjects : s'.objects = s.objects)
    (hcollections : s'.collections = s.collections.modify c f) : Spares c s s' :=
  ⟨fun k => by rw [hobjects], fun d hd => by rw [hcollections, Arena.get?_modify_ne hd.symm]⟩

theorem of_insert {col : Collection} (hobjects : s'.objects = s.objects)
    (hcollections : s'.collections = s.collections.insert col) :
    Spares s.collections.next s s' :=
  ⟨fun k => by rw [hobjects],
    fun d hd => by rw [hcollections, Arena.get?_insert, if_neg hd]⟩

end Spares

theorem spares_prepare (c : CollectionKey) (s : Store) : Spares c s (prepare c s).2 := by
  unfold prepare
  rcases s.collection c with e | col
  · exact .refl c s
  · dsimp only
    rcases col.prepared.filter s.isCurrent with _ | prepared
    · dsimp only
      rcases s.flattenCollection col with e | buffers
      · exact .of_modify rfl rfl
      · exact .of_modify rfl rfl
    · exact .refl c s

/-- Access by position makes one handle at most. -/
theorem spares_access {α : Type} {index : Nat} {x : Except Error Collection}
    {f : ObjectKey → Action α} (hf : ∀ k, (f k s).2 = s.withHandle (some k)) :
    Spares c s ((do let k ← objectAtPosition (← x) index; f k : Action α) s).2 := by
  refine ask_bind_induct (.refl c s) fun col _ => ask_bind_induct (.refl c s) fun k _ => ?_
  rw [hf k]
  exact .withHandle (some k)

section Subset

variable (hsubset : ∀ col, s.collections.get? c = some col → col.isSubset = true)
include hsubset

theorem spares_withReset {col : Collection} (subset : Bool)
    (hcol : s.collections.get? c = some col) : Spares c s (s.withReset c col subset) := by
  obtain ⟨slots, hstorage⟩ := storage_of_isSubset (hsubset col hcol)
  rw [withReset, hstorage]
  exact .of_modify rfl rfl

theorem spares_withoutCollection : Spares c s (s.withoutCollection c) := by
  unfold withoutCollection
  rcases hcol : s.collections.get? c with _ | col
  · exact .refl c s
  · have hreset := spares_withReset hsubset col.isSubset hcol
    refine ⟨hreset.objects, fun d hd => ?_⟩
    dsimp only
    rw [Arena.get?_erase, if_neg hd.symm, hreset.others d hd]

theorem spares_push {t : DataType} (handle : Handle t) : Spares c s (push c handle s).2 := by
  rcases push_cases c handle s with ⟨e, hpush⟩ |
    ⟨col, k, hcol, -, ⟨_, _, -, -, -, hnormal, -⟩ | ⟨_, _, _, -, -, -, -, hpush⟩⟩
  · rw [hpush]
    exact .refl c s
  · cases hnormal.symm.trans (hsubset col hcol)
  · rw [hpush]
    exact .of_modify rfl rfl

theorem spares_setReferences (resolver : Resolver) :
    Spares c s (setReferences resolver c s).2 := by
  rw [setReferences, get_bind_apply]
  refine ask_bind_induct (.refl c s) fun col hcol => ?_
  obtain ⟨slots, hstorage⟩ := storage_of_isSubset (hsubset col (collection_eq_ok_iff.1 hcol))
  dsimp only
  rcases col.originAs col.type with _ | ⟨id, ⟨toMany, toOne⟩ | many⟩
  · exact .refl c s
  · dsimp only
    rw [hstorage]
    dsimp only
    rw [get_bind_apply, bind_apply, liftExcept_apply]
    rcases slots.toList.mapM (s.resolveSlot resolver col.type) with e | linked
    · exact .refl c s
    · exact .of_modify rfl rfl
  · exact .refl c s

/-- Operations on a subset collection do not reach any object. -/
theorem ActsOn.spares (acts : ActsOn s c s') : Spares c s s' := by
  cases acts
  case newSubset t config hnext =>
    subst hnext
    exact .of_insert rfl rfl
  case rebuildSubset t b id config hnext hb =>
    subst hnext
    rcases rebuild_cases t b id config s with ⟨e, herror⟩ | ⟨htype, ⟨ids, -, hids⟩ | ⟨_, _, hnot, -⟩⟩
    · rw [herror]
      exact .refl _ s
    · rw [rebuild_apply_subset htype hb hids]
      exact .of_insert rfl rfl
    · rw [hb] at hnot
      cases hnot
  case create t payload =>
    rw [Store.create, get_bind_apply]
    refine ask_bind_induct (.refl c s) fun col hcol => ?_
    rw [hsubset col (collectionAs_eq_ok hcol).1]
    exact .refl c s
  case push handle => exact spares_push hsubset handle
  case clear =>
    rcases hcol : s.collections.get? c with _ | col
    · rw [clear_apply_of_none hcol]
      exact .refl c s
    · rw [clear_apply hcol]
      exact spares_withReset hsubset col.isSubset hcol
  case discard =>
    rw [discard_apply]
    exact spares_withoutCollection hsubset
  case setCollectionId id => exact .of_modify rfl rfl
  case setSubset subset =>
    rcases setSubset_cases c subset s with ⟨e, hset, -⟩ | ⟨col, -, ⟨-, hset⟩ | ⟨-, -, hset⟩⟩
    · rw [hset]
      exact .refl c s
    · rw [hset]
      exact .refl c s
    · rw [hset]
      exact .of_modify rfl rfl
  case setReferences resolver => exact spares_setReferences hsubset resolver
  case prepare => exact spares_prepare c s
  case objectAt index =>
    rw [Store.objectAt, get_bind_apply]
    exact spares_access fun k => by rw [refer_apply]
  case getObject t index =>
    rw [Store.getObject, get_bind_apply]
    exact spares_access fun k => by rw [handleTo_apply]
  case getMutable t index =>
    rw [Store.getMutable, get_bind_apply]
    exact spares_access fun k => by rw [mutableHandleTo_apply]
  case put f name =>
    rcases put_cases f name c s with ⟨e, hput⟩ | ⟨e, hput⟩ | ⟨_, id, ids, -, -, hput⟩
    · rw [hput]
      exact .refl c s
    · rw [hput]
      exact spares_withoutCollection hsubset
    · rw [hput]
      exact .of_modify rfl rfl
  case take t f name =>
    rw [Store.take, get_bind_apply]
    refine ask_bind_induct (.refl c s) fun frame _ => ?_
    rcases frame.find? name with _ | ⟨position, d⟩
    · exact .refl c s
    · dsimp only
      rw [get_bind_apply]
      exact ask_bind_induct (.refl c s) fun col _ => ⟨fun _ => rfl, fun _ _ => rfl⟩

/-- A subset collection owns nothing. -/
theorem WellFormed.not_owned_by_subset (h : WellFormed s) {k : ObjectKey} {i : Nat} :
    s.tracking? k ≠ some (.owned c i) := by
  intro hk
  obtain ⟨col, objects, hcol, hstorage, -⟩ := h.listsAt_iff.2 hk
  obtain ⟨slots, hslots⟩ := storage_of_isSubset (hsubset col hcol)
  rw [hstorage] at hslots
  cases hslots

/-- Without a change of objects and of their owners every address stays. -/
theorem Spares.idOf_eq (h : WellFormed s) (spares : Spares c s s') (target : Option ObjectKey) :
    s'.idOf target = s.idOf target ∧ s'.isAvailable target = s.isAvailable target := by
  rcases target with _ | k
  · exact ⟨rfl, rfl⟩
  · have hsettled := spares.objects k
    rcases ho : s.objects.get? k with _ | o
    · rw [ho, Option.map_none, Option.map_eq_none_iff] at hsettled
      simp [idOf, isAvailable, available, ho, hsettled, Except.map]
    · rw [ho, Option.map_some] at hsettled
      obtain ⟨o', ho', heq⟩ := Option.map_eq_some_iff.1 hsettled
      -- a floating object may count its handles, and is untracked before and after
      by_cases hfloating : ∃ n, o.tracking = .floating n
      · obtain ⟨n, hn⟩ := hfloating
        obtain ⟨n', hn'⟩ := Object.isFloating_of_settled_eq heq hn
        rw [idOf_of_floating (n := n') (by rw [tracking?_of_get? ho', hn']),
          idOf_of_floating (n := n) (by rw [tracking?_of_get? ho, hn])]
        simp [isAvailable, ho, ho', Object.isReleased, hn, hn']
      · obtain rfl := Object.eq_of_settled_eq_of_not_floating heq fun n hn => hfloating ⟨n, hn⟩
        have haddress : s'.addressOf o' = s.addressOf o' := by
          unfold addressOf
          split
          · rename_i owner i htracking
            have hne : owner ≠ c := by
              rintro rfl
              exact h.not_owned_by_subset hsubset (by rw [tracking?_of_get? ho, htracking])
            rw [spares.others owner hne]
          · rfl
        refine ⟨?_, by simp [isAvailable, ho, ho']⟩
        simp only [idOf, available, Option.bind_some, ho, ho']
        split
        · rfl
        · simp only [Except.map, haddress]

end Subset

/-! ## Identity in a run -/

/-- What a run that passed the stores `past` ensures about the identity of objects in `s`. -/
structure Identifies (past : List Store) (s : Store) : Prop where
  /-- The object at a position of a normal collection is available and has the address that
  consists of the position and of the number of the collection. -/
  address : ∀ c col objects i k, s.collections.get? c = some col → col.storage = .owned objects →
    objects[i]? = some k →
      s.isAvailable (some k) = true ∧ s.idOf (some k) = .ok (.ofPosition i col.id)
  /-- A tracked object is in exactly one normal collection, at exactly one position. -/
  place : ∀ k, s.isTracked (some k) = true → ∃! p : CollectionKey × Nat, s.ListsAt p.1 p.2 k
  /-- An object is untracked as long as no normal collection has ever listed it. -/
  untracked : ∀ k o, s.objects.get? k = some o →
    (s.idOf (some k) = .ok .untracked ↔ ∀ t ∈ s :: past, ∀ c i, ¬ t.ListsAt c i k)
  /-- A subset collection owns nothing, and no operation on it changes the address or the
  availability of an object. -/
  subset : ∀ c, (∀ col, s.collections.get? c = some col → col.isSubset = true) →
    (∀ k i, s.tracking? k ≠ some (.owned c i)) ∧
    ∀ s', ActsOn s c s' → ∀ target, s'.idOf target = s.idOf target ∧
      s'.isAvailable target = s.isAvailable target
  /-- What was tracked is never untracked again. -/
  tracked : ∀ t ∈ past, ∀ k, t.isTracked (some k) = true → s.idOf (some k) ≠ .ok .untracked
  /-- What was released is never available again. -/
  released : ∀ t ∈ past, ∀ k, t.tracking? k = some .released → s.isAvailable (some k) = false

/-- In every run objects keep their identity and have one owner at most. -/
theorem Run.identifies (h : Run (s :: past)) : Identifies past s where
  address c col objects i k hcol hstorage hi := by
    have hk := h.wellFormed.listsAt_iff.1 ⟨col, objects, hcol, hstorage, hi⟩
    obtain ⟨col', hcol', hid⟩ := h.wellFormed.idOf_of_owned hk
    rw [hcol] at hcol'
    cases hcol'
    exact ⟨isAvailable_iff.2 ⟨_, hk, by simp⟩, hid⟩
  place k htracked := by
    obtain ⟨c, i, hk⟩ := h.wellFormed.isTracked_iff.1 htracked
    refine ⟨(c, i), h.wellFormed.listsAt_iff.2 hk, ?_⟩
    rintro ⟨c', i'⟩ hlists
    rw [h.wellFormed.listsAt_iff.1 hlists] at hk
    cases hk
    rfl
  untracked k o ho := by
    rw [h.wellFormed.idOf_eq_untracked_iff]
    constructor
    · rintro ⟨n, hn⟩ t ht c i hlists
      have hwell := h.wellFormed_of_mem ht
      have hstage := h.stage_le k t ht
      rw [hn, hwell.listsAt_iff.1 hlists] at hstage
      exact absurd hstage (Nat.not_succ_le_self 1)
    -- an object that is not floating was listed at some time, when it was taken up
    · intro hnever
      rcases htracking : o.tracking with n | ⟨c, i⟩ | _
      · exact ⟨n, by rw [tracking?_of_get? ho, htracking]⟩
      all_goals
        have hstage : 2 ≤ stage (s.tracking? k) := by
          rw [tracking?_of_get? ho, htracking]
          simp [stage]
        obtain ⟨t, ht, c, i, hlists⟩ := h.exists_listsAt k hstage
        exact absurd hlists (hnever t ht c i)
  subset c hsubset :=
    ⟨fun _ _ => h.wellFormed.not_owned_by_subset hsubset,
      fun _ acts => (acts.spares hsubset).idOf_eq hsubset h.wellFormed⟩
  tracked t ht k htracked := by
    have hmem := List.mem_cons_of_mem s ht
    obtain ⟨c, i, hk⟩ := (h.wellFormed_of_mem hmem).isTracked_iff.1 htracked
    -- stages never go back
    rw [Ne, h.wellFormed.idOf_eq_untracked_iff]
    rintro ⟨n, hn⟩
    have hstage := h.stage_le k t hmem
    rw [hk, hn] at hstage
    exact absurd hstage (Nat.not_succ_le_self 1)
  released t ht k hk := by
    have hstage := h.stage_le k t (List.mem_cons_of_mem s ht)
    rw [hk] at hstage
    rw [← Bool.not_eq_true, isAvailable_iff]
    rintro ⟨tracking, hs, hnot⟩
    rw [hs] at hstage
    cases tracking <;> simp_all [stage]

/-- The stores of a run in which a floating object is taken up and then released. -/
def releasingRun : List Store :=
  let founded := (newCollection byteType false {} .empty).2
  let floating := (newObject byteType (5 : UInt8) founded).2
  let owned := (push (t := byteType) 0 ⟨⟨0⟩⟩ floating).2
  [(clear 0 owned).2, owned, floating, founded, .empty]

theorem run_releasingRun : Run releasingRun := by
  have hfloating := (Run.start.step (.newCollection byteType false {})).step
    (.newObject byteType (5 : UInt8))
  have howned := hfloating.step (.push (t := byteType) 0 ⟨⟨0⟩⟩ (by decide +kernel))
  exact howned.step (.clear 0 (by decide +kernel))

/-- The object was tracked by the first position, and is not available in the end. -/
theorem identifies_releasingRun :
    releasingRun.map (·.isTracked (some 0)) = [false, true, false, false, false] ∧
      releasingRun.map (·.isAvailable (some 0)) = [false, true, true, false, false] ∧
      Identifies releasingRun.tail (releasingRun.head (by decide)) :=
  ⟨by decide +kernel, by decide +kernel, Run.identifies run_releasingRun⟩

end EventModel.Store
