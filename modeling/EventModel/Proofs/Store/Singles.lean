import EventModel.Proofs.Store.Lifecycle
import EventModel.Proofs.Store.Settling

/-!
# To-one relations

The value of a to-one relation lives in two places: in the body of the object, and, while its
collection waits for resolution, in a stored address. A change other than an assignment leaves both
as they are or, by resolution, takes the stored address away (`TreatsSlot`). Resolution puts what it
finds for the stored address in the place of what was set (`slot_of_setReferences`).
-/

namespace EventModel

open Store in
/-- The stored address for a to-one relation of the object at a position, if the collection waits
for resolution. -/
def Collection.waitingAt (col : Collection) (r position : Nat) : Option ObjectId :=
  if hr : r < col.type.toOne.length then waitingId col.origin ⟨r, hr⟩ position else none

namespace Store

variable {s s' s'' : Store} {k : ObjectKey} {r : Nat} {kind : ChangeKind}

/-- The type of an object with what is set for one of its to-one relations, if the object and the
relation exist. -/
def slot? (s : Store) (k : ObjectKey) (r : Nat) : Option (DataType × Option ObjectKey) :=
  (s.objects.get? k).bind fun o => o.body.toOne[r]?.map (o.type, ·)

/-- The stored address that waits for resolution in a to-one relation of an object. -/
def waiting? (s : Store) (k : ObjectKey) (r : Nat) : Option ObjectId :=
  match s.tracking? k with
  | some (.owned c position) => (s.collections.get? c).bind (·.waitingAt r position)
  | _ => none

/-! ## Where addresses wait -/

/-- Stored addresses are for the objects that a collection was rebuilt with, not for those that it
took up later. -/
def SinglesFit (s : Store) : Prop :=
  ∀ c col objects, s.collections.get? c = some col → col.storage = .owned objects →
    ∀ i, objects.size ≤ i → ∀ r, col.waitingAt r i = none

theorem waitingAt_eq_none_of_origin {col : Collection} (h : col.origin = none) (r i : Nat) :
    col.waitingAt r i = none := by
  unfold Collection.waitingAt
  rw [h]
  split <;> rfl

theorem waitingAt_eq_none_of_resolved {col : Collection} {id : CollectionId}
    {many : Vector (List ObjectKey) col.type.toMany.length}
    (h : col.origin = some ⟨id, .resolved many⟩) (r i : Nat) : col.waitingAt r i = none := by
  unfold Collection.waitingAt
  rw [h]
  split <;> rfl

theorem waitingAt_of_stored {col : Collection} {id : CollectionId}
    {toMany : Vector (List ObjectId) col.type.toMany.length}
    {toOne : Vector (List ObjectId) col.type.toOne.length}
    (h : col.origin = some ⟨id, .stored toMany toOne⟩) (r : Fin col.type.toOne.length) (i : Nat) :
    col.waitingAt r i = toOne[r][i]? := by
  unfold Collection.waitingAt
  rw [h, dif_pos r.isLt]
  rfl

theorem SinglesFit.of_quiet (h : s.SinglesFit) (q : Quiet s s') : s'.SinglesFit := by
  intro c col' objects hcol'
  rcases q.collection hcol' with ⟨col, hcol, heq⟩
  rw [heq]
  exact h c col objects hcol

/-- A collection that changes keeps the fit if its new form has it. -/
theorem SinglesFit.modify (h : s.SinglesFit) {c : CollectionKey} {col : Collection}
    {g : Collection → Collection} (hcol : s.collections.get? c = some col)
    (hfit : ∀ objects, (g col).storage = .owned objects →
      ∀ i, objects.size ≤ i → ∀ r, (g col).waitingAt r i = none)
    (hcollections : s'.collections = s.collections.modify c g) : s'.SinglesFit := by
  intro d col' objects hcol'
  rw [hcollections] at hcol'
  rcases Arena.get?_modify_eq_some hcol' with ⟨rfl, old, hold, rfl⟩ | ⟨-, hold⟩
  · cases hcol.symm.trans hold
    exact hfit objects
  · exact h d col' objects hold

/-- A collection that is rebuilt has an address for each of its objects. -/
theorem SinglesFit.found (h : s.SinglesFit) {bodies : List (Body col.type)}
    (hfounds : s.Founds col bodies) : (s.withFounded col bodies).SinglesFit := by
  intro d col' objects hcol' hstorage i hi r
  rw [withFounded_collections] at hcol'
  rcases Arena.get?_insert_eq_some hcol' with hold | ⟨-, rfl⟩
  · exact h d col' objects hold hstorage i hi r
  · cases hfounds with
    | subset ids hsubset => cases hsubset.symm.trans hstorage
    | owned bodies howned _ hsingles =>
      cases howned.symm.trans hstorage
      rw [List.size_toArray, List.length_map, List.length_range] at hi
      -- there are as many addresses as objects, so none is left over
      by_cases hr : r < col'.type.toOne.length
      · rcases horigin : col'.origin with _ | ⟨id, ⟨toMany, toOne⟩ | ⟨many⟩⟩
        · exact waitingAt_eq_none_of_origin horigin r i
        · rw [waitingAt_of_stored horigin ⟨r, hr⟩]
          exact List.getElem?_eq_none (hsingles id toMany toOne horigin ⟨r, hr⟩ ▸ hi)
        · exact waitingAt_eq_none_of_resolved horigin r i
      · exact dif_neg hr

theorem SinglesFit.change (h : s.SinglesFit) (change : Change s kind s') : s'.SinglesFit := by
  cases change
  case hold target _ => exact h.of_quiet (quiet_withHandle s target)
  case unlink r target _ => exact h.of_quiet (quiet_withoutTarget s r.key target)
  case forget => exact h
  case newObject t payload =>
    intro c col objects hcol
    exact h c col objects (by simpa [withNewObject] using hcol)
  case access target => exact h.of_quiet (quiet_advanceOwner s target)
  case edit target _ _ _ _ _ _ _ | setPlace target _ _ _ _ _ =>
    have hfit := h.of_quiet (quiet_advanceOwner s target)
    exact hfit
  case found hfounds => exact h.found hfounds
  case adopt c target col o n _ hcol hnormal _ _ _ _ =>
    rcases storage_of_normal hnormal with ⟨objects, hstorage⟩
    refine h.modify hcol ?_ rfl
    intro objects' hstorage' i hi r
    rw [appendOwned_of_owned hstorage] at hstorage' ⊢
    cases hstorage'
    exact h c col objects hcol hstorage i (by rw [Array.size_push] at hi; omega) r
  case enlist c target col o owner position _ hcol hsubset _ _ _ =>
    rcases storage_of_isSubset hsubset with ⟨slots, hstorage⟩
    refine h.modify hcol ?_ rfl
    intro objects hstorage'
    rw [appendSlot_of_subset hstorage] at hstorage'
    cases hstorage'
  case reset c col subset _ hcol =>
    refine h.modify hcol ?_ (by rw [withReset, modifyCollection_collections, releaseAll_collections])
    intro objects _ i _ r
    exact waitingAt_eq_none_of_origin rfl r i
  case remove c col _ hcol hempty =>
    intro d col' objects hcol'
    exact h d col' objects (Arena.get?_erase_eq_some hcol').2
  case renumber c id _ => exact h.of_quiet (quiet_modifyCollection s s.serial c _ fun _ => rfl)
  -- nothing waits in subset collections, nor in those that are resolved
  case resolveSubset c col origin slots linked hcol hstorage _ _ _ =>
    refine h.modify hcol ?_ rfl
    rintro objects ⟨⟩
  case resolveOwned c col objects id toMany toOne many one hcol _ _ _ _ _ _ =>
    refine h.modify hcol ?_ (by rw [modifyCollection_collections, assignAllSingles_collections])
    intro objects' _ i _ r
    rw [withColumns_self]
    exact waitingAt_eq_none_of_resolved rfl r i
  case keep c col buffers _ _ =>
    exact h.of_quiet (quiet_modifyCollection s (s.serial + 1) c _ fun _ => rfl)
  case unkeep c => exact h.of_quiet (quiet_modifyCollection s s.serial c _ fun _ => rfl)
  case newFrame => exact h
  case adoptIds => exact h
  case setParameters => exact h
  case putSlot => exact h
  case takeSlot => exact h
  case eraseFrame => exact h

theorem Reachable.singlesFit (h : Reachable s) : s.SinglesFit := by
  refine h.induct ?_ fun _ _ _ _ hfit change => hfit.change change
  intro c col objects hcol
  simp [Store.empty, Arena.get?] at hcol

/-! ## What a change does to a to-one relation -/

theorem slot?_of_get? {o : Object} (ho : s.objects.get? k = some o) :
    s.slot? k r = o.body.toOne[r]?.map (o.type, ·) := by
  rw [slot?, ho, Option.bind_some]

theorem slot?_eq_some_iff {t : DataType} {place : Option ObjectKey} :
    s.slot? k r = some (t, place) ↔ ∃ (tracking : Tracking) (body : Body t)
      (hr : r < t.toOne.length), s.objects.get? k = some ⟨t, tracking, body⟩ ∧
        body.toOne[r] = place := by
  constructor
  · intro h
    rcases Option.bind_eq_some_iff.1 h with ⟨⟨type, tracking, body⟩, ho, hslot⟩
    rcases Option.map_eq_some_iff.1 hslot with ⟨place', hplace, heq⟩
    cases heq
    rcases Vector.getElem?_eq_some_iff.1 hplace with ⟨hr, hplace⟩
    exact ⟨tracking, body, hr, ho, hplace⟩
  · rintro ⟨tracking, body, hr, ho, rfl⟩
    rw [slot?_of_get? ho, Vector.getElem?_eq_getElem hr, Option.map_some]

theorem isSome_tracking?_of_slot? {slot : DataType × Option ObjectKey}
    (h : s.slot? k r = some slot) : (s.tracking? k).isSome = true := by
  rcases Option.bind_eq_some_iff.1 h with ⟨o, ho, -⟩
  rw [tracking?_of_get? ho, Option.isSome_some]

theorem waiting?_of_owned {c : CollectionKey} {i : Nat}
    (h : s.tracking? k = some (.owned c i)) :
    s.waiting? k r = (s.collections.get? c).bind (·.waitingAt r i) := by
  rw [waiting?, h]

theorem waiting?_eq_none (h : ∀ c i, s.tracking? k ≠ some (.owned c i)) :
    s.waiting? k r = none := by
  unfold waiting?
  split
  · rename_i c i htracking
    exact absurd htracking (h c i)
  · rfl

/-- What is set and what waits for a to-one relation of an object stay as they are. -/
structure KeepsSlot (k : ObjectKey) (r : Nat) (s s' : Store) : Prop where
  slot : s'.slot? k r = s.slot? k r
  waiting : s'.waiting? k r = s.waiting? k r

theorem KeepsSlot.refl : KeepsSlot k r s s :=
  ⟨rfl, rfl⟩

theorem KeepsSlot.trans (h : KeepsSlot k r s s') (h' : KeepsSlot k r s' s'') :
    KeepsSlot k r s s'' :=
  ⟨h'.slot.trans h.slot, h'.waiting.trans h.waiting⟩

/-- An object that stays as it is keeps its to-one relations if its owner keeps the addresses. -/
theorem keepsSlot_of_object (hobject : s'.objects.get? k = s.objects.get? k)
    (howner : ∀ c i, s.tracking? k = some (.owned c i) →
      (s'.collections.get? c).bind (·.waitingAt r i) =
        (s.collections.get? c).bind (·.waitingAt r i)) : KeepsSlot k r s s' where
  slot := by rw [slot?, slot?, hobject]
  waiting := by
    have htracking := tracking?_congr hobject
    rcases hk : s.tracking? k with _ | n | ⟨c, i⟩ | _
    case some.owned =>
      rw [waiting?_of_owned hk, waiting?_of_owned (htracking.trans hk), howner c i hk]
    all_goals
      rw [waiting?_eq_none (s := s) (by simp [hk]), waiting?_eq_none (by simp [htracking, hk])]

theorem Quiet.keepsSlot (q : Quiet s s') (k : ObjectKey) (r : Nat) : KeepsSlot k r s s' := by
  rcases ho : s.objects.get? k with _ | o
  · refine keepsSlot_of_object ((q.get?_eq_none ho).trans ho.symm) ?_
    intro c i hk
    rw [tracking?, ho] at hk
    cases hk
  · by_cases hfloating : ∃ n, o.tracking = .floating n
    · rcases hfloating with ⟨n, hn⟩
      rcases q.symm.object ho with ⟨o', ho', hsettled⟩
      rcases Object.isFloating_of_settled_eq hsettled.symm hn with ⟨m, hm⟩
      refine ⟨?_, ?_⟩
      · rw [slot?_of_get? ho, slot?_of_get? ho', Object.eq_of_settled_eq hsettled.symm]
      · rw [waiting?_eq_none (s := s) (by simp [tracking?_of_get? ho, hn]),
          waiting?_eq_none (by simp [tracking?_of_get? ho', hm])]
    · have ho' := q.object_of_not_floating ho fun n hn => hfloating ⟨n, hn⟩
      refine keepsSlot_of_object (ho'.trans ho.symm) ?_
      intro c i _
      have hcontent := q.collections c
      rcases hcol : s.collections.get? c with _ | col
      · rw [hcol, Option.map_none, Option.map_eq_none_iff] at hcontent
        rw [hcontent]
      · rcases q.symm.collection hcol with ⟨col', hcol', heq⟩
        rw [hcol', Option.bind_some, Option.bind_some, heq]
        rfl

theorem KeepsSlot.of_eq (hobjects : s'.objects = s.objects)
    (hcollections : s'.collections = s.collections) : KeepsSlot k r s s' :=
  (quiet_of_eq hobjects hcollections).keepsSlot k r

/-- How a change that sets no to-one relation treats one. -/
inductive TreatsSlot (k : ObjectKey) (r : Nat) (s s' : Store) : Prop
  | isKept (h : KeepsSlot k r s s')
  | isFilled (hwaits : (s.waiting? k r).isSome = true) (hfilled : s'.waiting? k r = none)

theorem TreatsSlot.trans (h : TreatsSlot k r s s') (h' : TreatsSlot k r s' s'') :
    TreatsSlot k r s s'' := by
  cases h with
  | isKept hkept =>
    cases h' with
    | isKept hkept' => exact .isKept (hkept.trans hkept')
    | isFilled hwaits hfilled => exact .isFilled (hkept.waiting ▸ hwaits) hfilled
  | isFilled hwaits hfilled =>
    cases h' with
    | isKept hkept => exact .isFilled hwaits (hkept.waiting.trans hfilled)
    | isFilled hwaits' _ =>
      rw [hfilled] at hwaits'
      cases hwaits'

@[simp]
theorem waiting?_setBody {t : DataType} (target k : ObjectKey) (body : Body t) (r : Nat) :
    (s.setBody target body).waiting? k r = s.waiting? k r := by
  rw [waiting?, waiting?, tracking?_setBody]
  rfl

/-- A new body keeps what is set for a relation unless it differs there. -/
theorem keepsSlot_setBody {t : DataType} {target : ObjectKey} {old new : Body t}
    (hold : s.body t target = .ok old) (hslot : target = k → new.toOne[r]? = old.toOne[r]?) :
    KeepsSlot k r s (s.setBody target new) where
  slot := by
    rcases body_eq_ok_iff.1 hold with ⟨tracking, ho, -⟩
    by_cases hk : target = k
    · cases hk
      rw [slot?_of_get? ho, slot?_of_get? (setBody_get?_self ho new)]
      rw [hslot rfl]
    · rw [slot?, slot?, setBody_get?_ne hk]
  waiting := waiting?_setBody target k new r

theorem body_advanceOwner {t : DataType} {target : ObjectKey} {body : Body t}
    (hbody : s.body t target = .ok body) : (s.advanceOwner target).body t target = .ok body := by
  rw [body_eq_ok_iff] at hbody ⊢
  rwa [advanceOwner_objects]

section Change

variable {o : Object} {c : CollectionKey} {col : Collection}

theorem keepsSlot_withNewObject (ho : s.objects.get? k = some o) (t : DataType)
    (payload : t.payload.Value) : KeepsSlot k r s (s.withNewObject t payload) := by
  refine KeepsSlot.trans ?_ ((quiet_withHandle _ _).keepsSlot k r)
  exact keepsSlot_of_object ((Arena.get?_insert_of_get? ho).trans ho.symm) fun _ _ _ => rfl

theorem keepsSlot_withFounded (h : WellFormed s) (ho : s.objects.get? k = some o)
    (bodies : List (Body col.type)) : KeepsSlot k r s (s.withFounded col bodies) := by
  refine keepsSlot_of_object ((withFounded_get?_of_get? ho).trans ho.symm) ?_
  intro d i hk
  rw [tracking?_of_get? ho, Option.some.injEq] at hk
  rcases h.owner k o d i ho hk with ⟨owner, objects, howner, -, -⟩
  rw [withFounded_collections, Arena.get?_insert_of_get? howner, howner]

/-- No address waits for an object that a collection takes up. -/
theorem keepsSlot_withAdopted (hfit : s.SinglesFit) {target : ObjectKey} {n : UInt32}
    (hcol : s.collections.get? c = some col) (hnormal : col.isSubset = false)
    (ho : s.objects.get? target = some o) (hfloating : o.tracking = .floating n) :
    KeepsSlot k r s (s.withAdopted c col.size target) := by
  rcases storage_of_normal hnormal with ⟨objects, hstorage⟩
  have hsize : col.size = objects.size := by rw [Collection.size, hstorage, Storage.size]
  have hcol' := withAdopted_collections_self hcol col.size target
  by_cases hk : target = k
  · cases hk
    have ho' := withAdopted_get?_self ho c col.size
    refine ⟨by rw [slot?_of_get? ho, slot?_of_get? ho'], ?_⟩
    rw [waiting?_eq_none (s := s) (by simp [tracking?_of_get? ho, hfloating]),
      waiting?_of_owned (tracking?_of_get? ho'), hcol', Option.bind_some,
      appendOwned_of_owned hstorage]
    exact hfit c col objects hcol hstorage _ (Nat.le_of_eq hsize.symm) r
  · refine keepsSlot_of_object (withAdopted_get?_ne (Ne.symm hk) c col.size) ?_
    intro d i _
    by_cases hd : d = c
    · cases hd
      rw [hcol', hcol, appendOwned_of_owned hstorage]
      rfl
    · rw [withAdopted_collections_ne hd]

/-- A change of one collection concerns the relations of its own objects only. -/
theorem keepsSlot_of_other (h : WellFormed s) (hcol : s.collections.get? c = some col)
    (hk : k ∉ col.storage.objects) (hobject : s'.objects.get? k = s.objects.get? k)
    (hothers : ∀ d, d ≠ c → s'.collections.get? d = s.collections.get? d) :
    KeepsSlot k r s s' := by
  refine keepsSlot_of_object hobject ?_
  intro d i howned
  rcases tracking?_eq_some_iff.1 howned with ⟨o, ho, htracking⟩
  have hd : d ≠ c := by
    rintro rfl
    exact hk ((h.mem_objects_iff hcol ho).2 (by rw [Object.owner?, htracking]))
  rw [hothers d hd]

theorem treatsSlot_withReset (h : WellFormed s) (hcol : s.collections.get? c = some col)
    (subset : Bool) : TreatsSlot k r s (s.withReset c col subset) := by
  have hget := s.withReset_get? c col subset k
  by_cases hmem : k ∈ col.storage.objects
  · rw [if_pos hmem] at hget
    rcases exists_getElem?_of_mem_objects hmem with ⟨objects, i, hstorage, hi⟩
    rcases h.listed c col objects i k hcol hstorage hi with ⟨o, ho, -, -⟩
    rw [ho, Option.map_some] at hget
    have hslot : (s.withReset c col subset).slot? k r = s.slot? k r := by
      rw [slot?_of_get? ho, slot?_of_get? hget]
      rfl
    have hnone : (s.withReset c col subset).waiting? k r = none :=
      waiting?_eq_none (by simp [tracking?_of_get? hget, Object.release])
    rcases hwaiting : s.waiting? k r with _ | id
    · exact .isKept ⟨hslot, hnone.trans hwaiting.symm⟩
    · exact .isFilled (by rw [hwaiting, Option.isSome_some]) hnone
  · rw [if_neg hmem] at hget
    refine .isKept (keepsSlot_of_other h hcol hmem hget ?_)
    intro d hd
    exact withReset_collections_ne hd col subset

section Resolution

variable {objects : Array ObjectKey}
  (one : Vector (List (Option ObjectKey)) col.type.toOne.length)

/-- An object is listed once. -/
theorem objects_nodup (h : WellFormed s) (hcol : s.collections.get? c = some col)
    (hstorage : col.storage = .owned objects) : objects.toList.Nodup := by
  refine List.nodup_iff_getElem?_ne_getElem?.2 ?_
  intro i j hlt hj heq
  rw [Array.getElem?_toList, Array.getElem?_toList] at heq
  have hk : objects[j]? = some objects[j] := Array.getElem?_eq_getElem (by simpa using hj)
  rcases h.listed c col objects j _ hcol hstorage hk with ⟨o, ho, -, htracking⟩
  rcases h.listed c col objects i _ hcol hstorage (heq.trans hk) with ⟨o', ho', -, htracking'⟩
  cases ho.symm.trans ho'
  cases htracking.symm.trans htracking'
  exact Nat.lt_irrefl i hlt

variable {id : CollectionId} {many : Vector (List ObjectKey) col.type.toMany.length}

/-- Every object that a collection lists gets its to-one relations. -/
theorem withLinks_get?_of_listed (h : WellFormed s) (hcol : s.collections.get? c = some col)
    (hstorage : col.storage = .owned objects) {i : Nat} (hi : objects[i]? = some k) :
    ∃ body : Body col.type, s.objects.get? k = some ⟨col.type, .owned c i, body⟩ ∧
      (s.withLinks c objects.toList id many one).objects.get? k =
        some ⟨col.type, .owned c i, assignSingles one i body⟩ := by
  rcases h.listed c col objects i k hcol hstorage hi with ⟨⟨type, tracking, body⟩, ho, rfl, rfl⟩
  refine ⟨body, ho, ?_⟩
  have hassigned := @assignAllSingles_get?_of_getElem? s _ one _ (objects_nodup h hcol hstorage)
    0 i k _ body (by rw [Array.getElem?_toList, hi]) ho (by simp)
  rwa [Nat.zero_add] at hassigned

theorem withLinks_collections_get? (keys : List ObjectKey)
    (hcol : s.collections.get? c = some col) :
    (s.withLinks c keys id many one).collections.get? c =
      some (withColumns col (⟨id, .resolved many⟩ : Origin col.type)) := by
  rw [withLinks, modifyCollection_collections, assignAllSingles_collections,
    Arena.get?_modify_self hcol]

/-- Nothing waits after resolution. -/
theorem waiting?_withLinks (h : WellFormed s) (hcol : s.collections.get? c = some col)
    (hstorage : col.storage = .owned objects) {i : Nat} (hi : objects[i]? = some k) (r : Nat) :
    (s.withLinks c objects.toList id many one).waiting? k r = none := by
  rcases @withLinks_get?_of_listed s k c col objects one id many h hcol hstorage i hi
    with ⟨body, -, ho'⟩
  rw [waiting?_of_owned (tracking?_of_get? ho'), withLinks_collections_get? one _ hcol,
    Option.bind_some, withColumns_self]
  exact waitingAt_eq_none_of_resolved rfl r i

/-- What resolution finds takes the place of what was set. -/
theorem slot?_withLinks (h : WellFormed s) (hcol : s.collections.get? c = some col)
    (hstorage : col.storage = .owned objects) {i : Nat} (hi : objects[i]? = some k)
    (r : Fin col.type.toOne.length) :
    ∃ place, s.slot? k r = some (col.type, place) ∧
      (s.withLinks c objects.toList id many one).slot? k r =
        some (col.type, one[r][i]?.getD place) := by
  rcases @withLinks_get?_of_listed s k c col objects one id many h hcol hstorage i hi
    with ⟨body, ho, ho'⟩
  refine ⟨body.toOne[r], ?_, ?_⟩
  · exact slot?_eq_some_iff.2 ⟨_, body, r.isLt, ho, rfl⟩
  · exact slot?_eq_some_iff.2 ⟨_, _, r.isLt, ho', assignSingles_getElem i body r⟩

theorem slot?_eq_none_of_not_lt {o : Object} (ho : s.objects.get? k = some o)
    (hr : ¬ r < o.type.toOne.length) : s.slot? k r = none := by
  rw [slot?_of_get? ho, Vector.getElem?_eq_none (Nat.le_of_not_lt hr), Option.map_none]

/-- Resolution sets the relations that wait, and those only. -/
theorem treatsSlot_withLinks (h : WellFormed s) (hcol : s.collections.get? c = some col)
    {toMany : Vector (List ObjectId) col.type.toMany.length}
    {toOne : Vector (List ObjectId) col.type.toOne.length} (hstorage : col.storage = .owned objects)
    (horigin : col.origin = some ⟨id, .stored toMany toOne⟩)
    (hsingles : ∀ r : Fin col.type.toOne.length, one[r].length = toOne[r].length) :
    TreatsSlot k r s (s.withLinks c objects.toList id many one) := by
  by_cases hmem : k ∈ objects.toList
  · rcases Array.getElem?_of_mem (Array.mem_toList_iff.1 hmem) with ⟨i, hi⟩
    rcases @withLinks_get?_of_listed s k c col objects one id many h hcol hstorage i hi
      with ⟨body, ho, ho'⟩
    have hfilled := @waiting?_withLinks s k c col objects one id many h hcol hstorage i hi r
    have hwaits : s.waiting? k r = col.waitingAt r i := by
      rw [waiting?_of_owned (tracking?_of_get? ho), hcol, Option.bind_some]
    by_cases hr : r < col.type.toOne.length
    · rw [waitingAt_of_stored horigin ⟨r, hr⟩] at hwaits
      rcases hstored : toOne[r][i]? with _ | waiting
      -- no address is stored for the object, so resolution sets nothing
      · have hplace : one[r][i]? = none := by
          rw [List.getElem?_eq_none_iff] at hstored ⊢
          exact hsingles ⟨r, hr⟩ ▸ hstored
        rcases @slot?_withLinks s k c col objects one id many h hcol hstorage i hi ⟨r, hr⟩
          with ⟨place, hslot, hslot'⟩
        have hkept : one[(⟨r, hr⟩ : Fin _)][i]?.getD place = place := by
          rw [show one[(⟨r, hr⟩ : Fin _)][i]? = none from hplace, Option.getD_none]
        refine .isKept ⟨?_, hfilled.trans (hwaits.trans hstored).symm⟩
        rw [hslot'.trans (congrArg (fun place => some (col.type, place)) hkept), ← hslot]
      · refine .isFilled ?_ hfilled
        rw [hwaits]
        exact Option.isSome_iff_exists.2 ⟨waiting, hstored⟩
    · refine .isKept ⟨?_, hfilled.trans (hwaits.trans (dif_neg hr)).symm⟩
      rw [slot?_eq_none_of_not_lt ho hr, slot?_eq_none_of_not_lt ho' hr]
  · have hobjects : col.storage.objects = objects.toList := by rw [hstorage, Storage.objects]
    refine .isKept (keepsSlot_of_other h hcol (hobjects ▸ hmem) ?_ ?_)
    · exact assignAllSingles_get?_of_not_mem hmem
    · intro d hd
      rw [withLinks, modifyCollection_collections, assignAllSingles_collections,
        Arena.get?_modify_ne hd.symm]

end Resolution

/-- A change that assigns nothing leaves a to-one relation as it is, or fills it by resolution. -/
theorem Change.treatsSlot (h : WellFormed s) (hfit : s.SinglesFit)
    (hmade : (s.tracking? k).isSome = true) (hkind : kind ≠ .link) (change : Change s kind s') :
    TreatsSlot k r s s' := by
  rcases Option.isSome_iff_exists.1 hmade with ⟨tracking, htracking⟩
  rcases tracking?_eq_some_iff.1 htracking with ⟨o, ho, -⟩
  cases change
  case hold target _ => exact .isKept ((quiet_withHandle s target).keepsSlot k r)
  case unlink r' target _ => exact .isKept ((quiet_withoutTarget s r'.key target).keepsSlot k r)
  case forget => exact .isKept (.of_eq rfl rfl)
  case newObject t payload => exact .isKept (keepsSlot_withNewObject ho t payload)
  case access target => exact .isKept ((quiet_advanceOwner s target).keepsSlot k r)
  case edit t target old new hold _ _ hsingles _ =>
    refine .isKept (((quiet_advanceOwner s target).keepsSlot k r).trans ?_)
    exact keepsSlot_setBody (body_advanceOwner hold) fun _ => by rw [hsingles]
  case setPlace => exact absurd rfl hkind
  case found col bodies _ _ _ => exact .isKept (keepsSlot_withFounded h ho bodies)
  case adopt hcol hnormal hobject _ hfloating _ =>
    exact .isKept (keepsSlot_withAdopted hfit hcol hnormal hobject hfloating)
  -- subset collections own no object
  case enlist c target col _ _ _ _ hcol hsubset _ _ _ =>
    rcases storage_of_isSubset hsubset with ⟨slots, hstorage⟩
    have hobjects : col.storage.objects = [] := by rw [hstorage, Storage.objects]
    refine .isKept (keepsSlot_of_other h hcol (by simp [hobjects]) rfl ?_)
    exact fun d hd => Arena.get?_modify_ne hd.symm _
  case reset c col subset _ hcol => exact treatsSlot_withReset h hcol subset
  case remove c col _ hcol hempty =>
    refine .isKept (keepsSlot_of_other h hcol (by simp [hempty]) rfl ?_)
    intro d hd
    exact (Arena.get?_erase ..).trans (if_neg hd.symm)
  case renumber c id _ =>
    have hquiet := quiet_modifyCollection s s.serial c (fun col => { col with id }.touch)
      fun _ => rfl
    exact .isKept (hquiet.keepsSlot k r)
  case resolveSubset c col origin slots linked hcol hstorage _ _ _ =>
    have hobjects : col.storage.objects = [] := by rw [hstorage, Storage.objects]
    refine .isKept (keepsSlot_of_other h hcol (by simp [hobjects]) rfl ?_)
    exact fun d hd => Arena.get?_modify_ne hd.symm _
  case resolveOwned one hcol hstorage horigin hlength hsingles hmany hone =>
    exact treatsSlot_withLinks one h hcol hstorage horigin hsingles
  case keep c col buffers _ _ =>
    have hquiet := quiet_modifyCollection s (s.serial + 1) c
      (fun col' => { col' with prepared := some ⟨s.stamps c col, buffers, s.serial⟩ })
      fun _ => rfl
    exact .isKept (hquiet.keepsSlot k r)
  case unkeep c =>
    have hquiet := quiet_modifyCollection s s.serial c (fun col => { col with prepared := none })
      fun _ => rfl
    exact .isKept (hquiet.keepsSlot k r)
  case newFrame => exact .isKept (.of_eq rfl rfl)
  case adoptIds => exact .isKept (.of_eq rfl rfl)
  case setParameters => exact .isKept (.of_eq rfl rfl)
  case putSlot => exact .isKept (.of_eq rfl rfl)
  case takeSlot => exact .isKept (.of_eq rfl rfl)
  case eraseFrame => exact .isKept (.of_eq rfl rfl)

theorem Changes.singlesFit (hfit : s.SinglesFit) (changes : Changes kind s s') :
    s'.SinglesFit := by
  induction changes with
  | refl => exact hfit
  | tail _ change ih => exact ih.change change

theorem Changes.treatsSlot (h : WellFormed s) (hfit : s.SinglesFit)
    (hmade : (s.tracking? k).isSome = true) (hkind : kind ≠ .link) (changes : Changes kind s s') :
    TreatsSlot k r s s' := by
  induction changes with
  | refl => exact .isKept .refl
  | tail earlier change ih =>
    have hmade' := (Changes.ages h earlier k).isSome hmade
    exact ih.trans (change.treatsSlot (Changes.wellFormed h earlier)
      (Changes.singlesFit hfit earlier) hmade' hkind)

end Change

/-! ## Assignments -/

section SetSingle

variable {t : DataType} {target : ObjectKey} {body : Body t} {place : Option ObjectKey}

/-- The store in which a to-one relation of an object is set. -/
def withPlace (s : Store) (target : ObjectKey) (body : Body t) (r : Fin t.toOne.length)
    (place : Option ObjectKey) : Store :=
  (s.advanceOwner target).setBody target { body with toOne := setAt body.toOne r place }

theorem slot?_withPlace (hbody : s.body t target = .ok body) (r : Fin t.toOne.length)
    (place : Option ObjectKey) :
    (s.withPlace target body r place).slot? target r = some (t, place) := by
  rcases body_eq_ok_iff.1 (body_advanceOwner hbody) with ⟨tracking, ho, -⟩
  exact slot?_eq_some_iff.2 ⟨tracking, _, r.isLt, setBody_get?_self ho _, by simp [setAt]⟩

/-- The stored address stays when a relation is set. -/
theorem waiting?_withPlace (target k : ObjectKey) (body : Body t) (r : Fin t.toOne.length)
    (place : Option ObjectKey) (i : Nat) :
    (s.withPlace target body r place).waiting? k i = s.waiting? k i := by
  rw [withPlace, waiting?_setBody, ((quiet_advanceOwner s target).keepsSlot k i).waiting]

/-- Other relations stay as they are. -/
theorem keepsSlot_withPlace (hbody : s.body t target = .ok body) {r : Fin t.toOne.length}
    {i : Nat} (hother : target = k → r.val ≠ i) :
    KeepsSlot k i s (s.withPlace target body r place) := by
  refine ((quiet_advanceOwner s target).keepsSlot k i).trans ?_
  refine keepsSlot_setBody (body_advanceOwner hbody) ?_
  intro hk
  exact Vector.getElem?_set_ne r.isLt (hother hk)

end SetSingle

/-! ## Resolution -/

theorem waitingAt_eq_some {col : Collection} {i : Nat} {id : ObjectId}
    (h : col.waitingAt r i = some id) :
    ∃ (number : CollectionId) (toMany : Vector (List ObjectId) col.type.toMany.length)
      (toOne : Vector (List ObjectId) col.type.toOne.length) (hr : r < col.type.toOne.length),
      col.origin = some ⟨number, .stored toMany toOne⟩ ∧ toOne[r][i]? = some id := by
  unfold Collection.waitingAt at h
  split at h
  · rename_i hr
    rcases horigin : col.origin with _ | ⟨number, ⟨toMany, toOne⟩ | ⟨many⟩⟩
    · rw [horigin] at h
      cases h
    · rw [horigin] at h
      exact ⟨number, toMany, toOne, hr, rfl, h⟩
    · rw [horigin] at h
      cases h
  · cases h

/-- Resolution puts what it finds for a stored address in the place of whatever was set. -/
theorem slot_of_setReferences (h : WellFormed s) {resolver : Resolver} {c : CollectionKey}
    {i : Nat} {id : ObjectId} (hrun : setReferences resolver c s = (.ok (), s'))
    (hlists : s.ListsAt c i k) (hwaits : s.waiting? k r = some id) :
    ∃ (t : DataType) (r' : Fin t.toOne.length) (place : Option ObjectKey), r'.val = r ∧
      s'.slot? k r = some (t, place) ∧
        s.ResolvesOptional resolver (t.toOne.get r').target id place := by
  rw [waiting?_of_owned (h.listsAt_iff.1 hlists)] at hwaits
  rcases hlists with ⟨col, objects, hcol, hstorage, hi⟩
  rw [hcol, Option.bind_some] at hwaits
  rcases waitingAt_eq_some hwaits with ⟨number, toMany, toOne, hr, horigin, hid⟩
  have hstands := stands_of_get? hcol
  rw [hstorage, horigin] at hstands
  rcases (setReferences_owned_eq_ok_iff h hstands).1 hrun with ⟨many, one, hfinds, rfl⟩
  rcases getElem?_of_forall₂ (hfinds.one ⟨r, hr⟩) hid with ⟨place, hplace, hresolves⟩
  rcases @slot?_withLinks s k c col objects one number many h hcol hstorage i hi ⟨r, hr⟩
    with ⟨old, -, hslot⟩
  refine ⟨col.type, ⟨r, hr⟩, place, rfl, ?_, hresolves⟩
  rw [hplace, Option.getD_some] at hslot
  exact hslot

end Store
end EventModel
