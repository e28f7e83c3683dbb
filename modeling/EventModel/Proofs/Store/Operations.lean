import EventModel.Proofs.Store.Preservation
import EventModel.Proofs.Store.Rebuilt

/-!
# Operations as sequences of changes

Every operation on a well-formed store, whether it succeeds or fails, is a sequence of changes. What
holds before each change comes from the checks of the operation and from the invariant.
-/

namespace EventModel.Store

variable {α β : Type} {s s' : Store} {kind : ChangeKind}

/-! ## Putting operations together -/

theorem get_bind_apply (f : Store → Action α) (s : Store) : (get >>= f) s = f s s := by
  rw [bind_apply_of_ok (get_apply s)]

theorem modify_bind_apply (g : Store → Store) (f : PUnit → Action α) (s : Store) :
    (modify g >>= f) s = f ⟨⟩ (g s) := by
  rw [bind_apply_of_ok (modify_apply g s)]

theorem Changes.of_change (h : Change s kind s') : Changes kind s s' := .single h

/-- A question that fails changes nothing. -/
theorem changes_ask {x : Except Error α} {f : α → Action β}
    (h : ∀ y, x = .ok y → Changes kind s (f y s).2) : Changes kind s ((liftM x >>= f) s).2 :=
  ask_bind_induct .refl h

theorem changes_bind {a : Action α} {f : α → Action β} (ha : Changes kind s (a s).2)
    (hf : ∀ x s', a s = (.ok x, s') → Changes kind s' (f x s').2) :
    Changes kind s ((a >>= f) s).2 :=
  bind_induct ha fun x s' hrun hs' => hs'.trans (hf x s' hrun)

/-- A run over a list of elements, each of which keeps what the rest of the run needs. -/
theorem changes_forEach {γ : Type} {f : γ → Action Unit} {P : Store → Prop} {xs : List γ}
    (hstep : ∀ x ∈ xs, ∀ s, P s → Changes kind s (f x s).2 ∧ P (f x s).2) (hs : P s) :
    Changes kind s (forEach f xs s).2 ∧ P (forEach f xs s).2 := by
  induction xs generalizing s with
  | nil => exact ⟨.refl, hs⟩
  | cons x rest ih =>
    obtain ⟨hchanges, hkept⟩ := hstep x List.mem_cons_self s hs
    rw [forEach, bind_apply]
    rcases hrun : f x s with ⟨e | ⟨⟩, s'⟩
    · rw [hrun] at hchanges hkept
      exact ⟨hchanges, hkept⟩
    · rw [hrun] at hchanges hkept
      obtain ⟨hrest, hend⟩ := ih (fun y hy => hstep y (List.mem_cons_of_mem x hy)) hkept
      exact ⟨hchanges.trans hrest, hend⟩

/-! ## Making and dropping handles -/

theorem hold_changes {target : Option ObjectKey}
    (h : ∀ k, target = some k → s.existsObject k = true) :
    Changes .gain s (s.withHandle target) :=
  .of_change (.hold target h)

/-- The target of a handle. -/
theorem target_eq_some_iff {r : Reference} {k : ObjectKey} :
    s.target r = some k ↔ s.handles.get? r.key = some (some k) := by
  rw [target, Option.join_eq_some_iff]

theorem isHeld_of_target {r : Reference} {k : ObjectKey} (hk : s.target r = some k) :
    s.isHeld k = true :=
  Arena.any_eq_true_iff.2 ⟨r.key, some k, target_eq_some_iff.1 hk, by simp⟩

theorem existsObject_of_isHeld {k : ObjectKey} {o : Object} (ho : s.objects.get? k = some o)
    (hheld : s.isHeld k = true) : s.existsObject k = true := by
  simp only [existsObject, ho, hheld, Bool.true_or]
  split <;> rfl

theorem existsObject_of_target (h : WellFormed s) {r : Reference} {k : ObjectKey}
    (hk : s.target r = some k) : s.existsObject k = true := by
  obtain ⟨o, ho⟩ := h.handles r.key k (target_eq_some_iff.1 hk)
  exact existsObject_of_isHeld ho (isHeld_of_target hk)

/-- Another handle to the same target can always be made. -/
theorem hold_target_changes (h : WellFormed s) (r : Reference) :
    Changes .gain s (s.withHandle (s.target r)) :=
  hold_changes fun _ hk => existsObject_of_target h hk

theorem hold_some_changes {k : ObjectKey} (h : s.existsObject k = true) :
    Changes .gain s (s.withHandle (some k)) := by
  refine hold_changes ?_
  rintro k' ⟨⟩
  exact h

theorem newObject_changes (t : DataType) (payload : t.payload.Value) :
    Changes .gain s (newObject t payload s).2 := by
  rw [newObject, get_bind_apply, bind_apply_of_ok (set_apply _ s), mutableHandleTo_apply]
  exact .of_change (.newObject t payload)

theorem refer_changes (k : ObjectKey) (h : s.existsObject k = true) :
    Changes .gain s (refer (some k) s).2 := by
  rw [refer_apply]
  exact hold_some_changes h

theorem erase_changes (h : WellFormed s) (r : Reference) : Changes .gain s (erase r s).2 := by
  rw [erase, get_bind_apply, refer_apply]
  exact hold_target_changes h r

theorem cloneHandle_changes (h : WellFormed s) {t : DataType} (handle : Handle t) :
    Changes .gain s (cloneHandle handle s).2 := by
  rw [cloneHandle, get_bind_apply, handleTo_apply]
  exact hold_target_changes h handle.toReference

theorem cloneMutable_changes (h : WellFormed s) {t : DataType} (handle : MutableHandle t) :
    Changes .gain s (cloneMutable handle s).2 := by
  rw [cloneMutable, get_bind_apply, mutableHandleTo_apply]
  exact hold_target_changes h handle.toReference

/-- What an object was found to be. -/
theorem object_eq_ok_iff {k : ObjectKey} {o : Object} :
    s.object k = .ok o ↔ s.objects.get? k = some o := by
  unfold object
  split
  · rename_i o' ho'
    simp [ho']
  · rename_i hnone
    simp [hnone]

theorem collection_eq_ok_iff {c : CollectionKey} {col : Collection} :
    s.collection c = .ok col ↔ s.collections.get? c = some col := by
  unfold collection
  split
  · rename_i col' hcol'
    simp [hcol']
  · rename_i hnone
    simp [hnone]

theorem expectType_eq_ok {t : DataType} {target : Option ObjectKey} {k : ObjectKey}
    (h : s.expectType t target = .ok k) :
    target = some k ∧ ∃ o, s.objects.get? k = some o ∧ o.type = t := by
  rcases target with _ | k'
  · cases h
  · rcases hobject : s.object k' with e | o
    · simp [expectType, hobject, bind, Except.bind] at h
    · by_cases htype : o.type = t
      · simp [expectType, hobject, bind, Except.bind, htype, pure, Except.pure] at h
        subst h
        exact ⟨rfl, o, object_eq_ok_iff.1 hobject, htype⟩
      · simp [expectType, hobject, bind, Except.bind, htype, throw, throwThe,
          MonadExceptOf.throw] at h

theorem downcast_changes {t : DataType} (r : Reference) : Changes .gain s (downcast t r s).2 := by
  rw [downcast, get_bind_apply, get_bind_apply]
  refine changes_ask fun k hk => ?_
  rw [handleTo_apply]
  obtain ⟨htarget, o, ho, -⟩ := expectType_eq_ok hk
  exact hold_some_changes (existsObject_of_isHeld ho (isHeld_of_target htarget))

theorem downcastMutable_changes {t : DataType} (r : Reference) :
    Changes .gain s (downcastMutable t r s).2 := by
  rw [downcastMutable, get_bind_apply, get_bind_apply]
  refine changes_ask fun k hk => ?_
  rw [mutableHandleTo_apply]
  obtain ⟨htarget, o, ho, -⟩ := expectType_eq_ok hk
  exact hold_some_changes (existsObject_of_isHeld ho (isHeld_of_target htarget))

theorem unlink_changes (r : Reference) : Changes .loss s (unlink r s).2 := by
  rw [unlink_apply]
  rcases hk : s.target r with _ | k
  · exact .refl
  · exact .of_change (.unlink r k hk)

/-- A handle that was unlinked points at nothing. -/
theorem target_unlink (r : Reference) : (unlink r s).2.target r = none := by
  rw [unlink_apply]
  rcases hk : s.target r with _ | k
  · exact hk
  · simp only [withoutTarget, target, modifyObject_handles, Arena.get?_modify, ↓reduceIte]
    cases s.handles.get? r.key <;> rfl

theorem drop_changes (r : Reference) : Changes .loss s (drop r s).2 := by
  rw [drop, bind_apply]
  have hunlink := unlink_changes (s := s) r
  have htarget := target_unlink (s := s) r
  rcases hrun : unlink r s with ⟨e | x, s'⟩
  · rw [hrun] at hunlink
    exact hunlink
  · rw [hrun] at hunlink htarget
    exact hunlink.tail (.forget r htarget)

/-! ## Changing an object -/

section Edit

variable {t : DataType}

theorem bodyOf_eq_ok {target : Option ObjectKey} {k : ObjectKey} {body : Body t}
    (h : s.bodyOf t target = .ok (k, body)) : target = some k ∧ s.body t k = .ok body := by
  rcases target with _ | k'
  · cases h
  · rcases hbody : s.body t k' with e | body'
    · simp [bodyOf, hbody, bind, Except.bind] at h
    · simp [bodyOf, hbody, bind, Except.bind, pure, Except.pure] at h
      obtain ⟨rfl, rfl⟩ := h
      exact ⟨rfl, hbody⟩

theorem linksTyped_of_body (h : WellFormed s) {k : ObjectKey} {body : Body t}
    (hbody : s.body t k = .ok body) : s.LinksTyped body := by
  obtain ⟨tracking, ho, -⟩ := body_eq_ok_iff.1 hbody
  exact h.links k _ ho

/-- An edit is sound if the new body has links of the declared types, no new windows and the to-one
relations of the old one, and its to-many relations as well unless they can be read. -/
theorem edit_changes {handle : MutableHandle t}
    {f : Store → ObjectKey → Body t → Except Error (Body t)}
    (hf : ∀ k old new, s.body t k = .ok old → f s k old = .ok new → s.LinksTyped new ∧
      (∀ windows, new.toMany = .windows windows → old.toMany = .windows windows) ∧
      new.toOne = old.toOne ∧ (new.toMany = old.toMany ∨
        ∃ (r : Fin t.toMany.length) (ks : List ObjectKey), s.links k old r = .ok ks)) :
    Changes .gain s (edit handle f s).2 := by
  unfold edit
  rcases hbody : s.bodyOf t (s.target handle.toReference) with e | ⟨k, old⟩
  · exact .refl
  · obtain ⟨-, hold⟩ := bodyOf_eq_ok hbody
    rcases hnew : f s k old with e | new
    · simp only [hnew]
      exact .of_change (.access k)
    · simp only [hnew]
      obtain ⟨hlinks, hwindows, hsingles, hrelations⟩ := hf k old new hold hnew
      exact .of_change (.edit k old new hold hlinks hwindows hsingles hrelations)

theorem updatePayload_changes (h : WellFormed s) (handle : MutableHandle t)
    (f : t.payload.Value → t.payload.Value) : Changes .gain s (updatePayload handle f s).2 := by
  refine edit_changes ?_
  rintro k old new hold ⟨⟩
  have hlinks := linksTyped_of_body h hold
  exact ⟨⟨hlinks.toMany, hlinks.toOne⟩, fun _ hw => hw, rfl, .inl rfl⟩

theorem pushMember_changes (h : WellFormed s) (handle : MutableHandle t) (member : Nat)
    (value : t.element.Value) : Changes .gain s (pushMember handle member value s).2 := by
  refine changes_ask fun m _ => edit_changes ?_
  rintro k old new hold ⟨⟩
  have hlinks := linksTyped_of_body h hold
  exact ⟨⟨hlinks.toMany, hlinks.toOne⟩, fun _ hw => hw, rfl, .inl rfl⟩

theorem setMembers_changes (h : WellFormed s) (handle : MutableHandle t) (member : Nat)
    (values : List t.element.Value) : Changes .gain s (setMembers handle member values s).2 := by
  refine changes_ask fun m _ => edit_changes ?_
  rintro k old new hold ⟨⟩
  have hlinks := linksTyped_of_body h hold
  exact ⟨⟨hlinks.toMany, hlinks.toOne⟩, fun _ hw => hw, rfl, .inl rfl⟩

theorem mem_of_slice {w : Window} {column xs : List α} {x : α} (h : w.slice column = .ok xs)
    (hx : x ∈ xs) : x ∈ column := by
  unfold Window.slice at h
  rcases hchecked : w.checked column.length with e | ⟨start, stop⟩
  · rw [hchecked] at h
    cases h
  · rw [hchecked] at h
    obtain rfl : (column.drop start).take (stop - start) = xs := Except.ok.inj h
    exact List.mem_of_mem_drop (List.mem_of_mem_take hx)

/-- The columns that the windows of an object select from belong to its owner. -/
theorem originOf_eq_ok {k : ObjectKey} {origin : Origin t} (h : s.originOf t k = .ok origin) :
    ∃ o c col, s.objects.get? k = some o ∧ o.owner? = some c ∧
      s.collections.get? c = some col ∧ col.originAs t = some origin := by
  unfold originOf at h
  obtain ⟨o, hobject, h⟩ := bind_eq_ok_iff.1 h
  rcases howner : o.owner? with _ | c
  · rw [howner] at h
    cases h
  · rw [howner] at h
    obtain ⟨col, hcol, h⟩ := bind_eq_ok_iff.1 h
    rcases horigin : col.originAs t with _ | origin'
    · rw [horigin] at h
      cases h
    · rw [horigin] at h
      obtain rfl : origin' = origin := Except.ok.inj h
      exact ⟨o, c, col, object_eq_ok_iff.1 hobject, howner, collection_eq_ok_iff.1 hcol, horigin⟩

theorem originAs_eq_some {col : Collection} {origin : Origin t}
    (h : col.originAs t = some origin) :
    ∃ htype : col.type = t, col.origin = some (htype ▸ origin) := by
  unfold Collection.originAs at h
  split at h
  · rename_i htype
    subst htype
    exact ⟨rfl, h⟩
  · cases h

/-- Links that can be followed have the declared type, whether the object keeps them itself or
selects them from the columns of its collection. -/
theorem LinksTyped.links {body : Body t} (hbody : s.LinksTyped body) (h : WellFormed s)
    {k : ObjectKey} {r : Fin t.toMany.length} {ks : List ObjectKey}
    (hlinks : s.links k body r = .ok ks) :
    ∀ k' ∈ ks, s.typeName? (some k') = some (t.toMany.get r).target := by
  intro k' hk'
  unfold Store.links at hlinks
  rcases hmany : body.toMany with lists | windows
  · simp only [hmany] at hlinks
    obtain rfl : lists[r] = ks := Except.ok.inj hlinks
    exact hbody.toMany lists hmany r k' hk'
  · simp only [hmany] at hlinks
    rcases horigin : s.originOf t k with e | ⟨id, columns⟩
    · rw [horigin] at hlinks
      cases hlinks
    · rw [horigin] at hlinks
      obtain ⟨o, c, col, -, -, hcol, horiginAs⟩ := originOf_eq_ok horigin
      obtain ⟨htype, hsome⟩ := originAs_eq_some horiginAs
      subst htype
      rcases columns with ⟨_, _⟩ | many
      · cases hlinks
      · exact h.columns c col id many hcol hsome r k' (mem_of_slice hlinks hk')

theorem links_typed (h : WellFormed s) {k : ObjectKey} {body : Body t}
    (hbody : s.body t k = .ok body) {r : Fin t.toMany.length} {ks : List ObjectKey}
    (hlinks : s.links k body r = .ok ks) :
    ∀ k' ∈ ks, s.typeName? (some k') = some (t.toMany.get r).target :=
  (linksTyped_of_body h hbody).links h hlinks

/-- Relations can be copied only if each of them can be read. -/
theorem exists_links_of_ownLists {k : ObjectKey} {body : Body t}
    {lists : Vector (List ObjectKey) t.toMany.length} (hlists : s.ownLists k body = .ok lists)
    (r : Fin t.toMany.length) : ∃ ks, s.links k body r = .ok ks := by
  unfold ownLists at hlists
  rcases hmany : body.toMany with lists' | windows
  · exact ⟨lists'[r], by rw [Store.links, hmany]⟩
  · simp only [hmany] at hlists
    exact ⟨lists[r], tryOfFn_apply hlists r⟩

theorem ownLists_typed (h : WellFormed s) {k : ObjectKey} {body : Body t}
    (hbody : s.body t k = .ok body) {lists : Vector (List ObjectKey) t.toMany.length}
    (hlists : s.ownLists k body = .ok lists) (r : Fin t.toMany.length) :
    ∀ k' ∈ lists[r], s.typeName? (some k') = some (t.toMany.get r).target := by
  unfold ownLists at hlists
  rcases hmany : body.toMany with lists' | windows
  · simp only [hmany] at hlists
    obtain rfl : lists' = lists := Except.ok.inj hlists
    exact (linksTyped_of_body h hbody).toMany lists' hmany r
  · simp only [hmany] at hlists
    exact links_typed h hbody (tryOfFn_eq_ok hlists r.val r.isLt)

theorem available_eq_ok {target : Option ObjectKey} {o : Object}
    (h : s.available target = .ok o) :
    ∃ k, target = some k ∧ s.objects.get? k = some o ∧ o.isReleased = false := by
  unfold available at h
  rcases target with _ | k
  · cases h
  · rcases ho : s.objects.get? k with _ | o'
    · simp [ho] at h
    · rcases hreleased : o'.isReleased
      · simp [ho, hreleased] at h
        subst h
        exact ⟨k, rfl, ho, hreleased⟩
      · simp [ho, hreleased] at h

theorem checkTarget_eq_ok {target : Option ObjectKey} {expected : String} {k : ObjectKey}
    (h : s.checkTarget target expected = .ok k) :
    target = some k ∧ s.typeName? (some k) = some expected := by
  rcases target with _ | k'
  · cases h
  · rcases havailable : s.available (some k') with e | o
    · simp [checkTarget, havailable, bind, Except.bind] at h
    · by_cases hname : o.type.name = expected
      · simp [checkTarget, havailable, bind, Except.bind, hname, pure, Except.pure] at h
        subst h
        obtain ⟨_, hk, ho, -⟩ := available_eq_ok havailable
        cases hk
        exact ⟨rfl, typeName?_eq_some_iff.2 ⟨o, ho, hname⟩⟩
      · simp [checkTarget, havailable, bind, Except.bind, hname, throw, throwThe,
          MonadExceptOf.throw] at h

/-- One list of an object is replaced by links of the declared type. -/
theorem linksTyped_set (h : WellFormed s) {k : ObjectKey} {body : Body t}
    (hbody : s.body t k = .ok body) {lists : Vector (List ObjectKey) t.toMany.length}
    (hlists : s.ownLists k body = .ok lists) (r : Fin t.toMany.length) {ks : List ObjectKey}
    (hks : ∀ k' ∈ ks, s.typeName? (some k') = some (t.toMany.get r).target) :
    s.LinksTyped { body with toMany := .lists (setAt lists r ks) } where
  toMany lists' hlists' r' k' hk' := by
    obtain rfl : setAt lists r ks = lists' := ToMany.lists.inj hlists'
    rw [getElem_setAt] at hk'
    split at hk'
    · rename_i heq
      subst heq
      exact hks k' hk'
    · exact ownLists_typed h hbody hlists r' k' hk'
  toOne := (linksTyped_of_body h hbody).toOne

theorem addRelated_changes (h : WellFormed s) (handle : MutableHandle t) (relation : Nat)
    (target : Reference) : Changes .gain s (addRelated handle relation target s).2 := by
  refine changes_ask fun r _ => ?_
  rw [get_bind_apply, get_bind_apply]
  refine changes_ask fun k hk => edit_changes ?_
  intro own old new hold hnew
  rcases hlists : s.ownLists own old with e | lists
  · rw [hlists] at hnew
    cases hnew
  · rw [hlists] at hnew
    cases hnew
    refine ⟨linksTyped_set h hold hlists r ?_, (fun _ hw => by cases hw), rfl,
      .inr ⟨r, exists_links_of_ownLists hlists r⟩⟩
    intro k' hk'
    rcases List.mem_append.1 hk' with hlist | hnew
    · exact ownLists_typed h hold hlists r k' hlist
    · cases List.mem_singleton.1 hnew
      exact (checkTarget_eq_ok hk).2

theorem clearRelated_changes (h : WellFormed s) (handle : MutableHandle t) (relation : Nat) :
    Changes .gain s (clearRelated handle relation s).2 := by
  refine changes_ask fun r _ => edit_changes ?_
  intro own old new hold hnew
  rcases hlists : s.ownLists own old with e | lists
  · rw [hlists] at hnew
    cases hnew
  · rw [hlists] at hnew
    cases hnew
    exact ⟨linksTyped_set h hold hlists r (by simp), (fun _ hw => by cases hw), rfl,
      .inr ⟨r, exists_links_of_ownLists hlists r⟩⟩

theorem setPlace_cases (handle : MutableHandle t) (r : Fin t.toOne.length)
    (place : Option ObjectKey) (s : Store) :
    (∃ e, edit handle (fun _ _ body => .ok { body with toOne := setAt body.toOne r place }) s =
      (.error e, s)) ∨
    ∃ k body, s.target handle.toReference = some k ∧ s.body t k = .ok body ∧
      edit handle (fun _ _ body => .ok { body with toOne := setAt body.toOne r place }) s =
        (.ok (), (s.advanceOwner k).setBody k { body with toOne := setAt body.toOne r place }) := by
  unfold edit
  rcases hbody : s.bodyOf t (s.target handle.toReference) with e | ⟨k, body⟩
  · exact .inl ⟨e, rfl⟩
  · obtain ⟨htarget, hbody⟩ := bodyOf_eq_ok hbody
    exact .inr ⟨k, body, htarget, hbody, rfl⟩

theorem setSingle_apply_of_none {handle : MutableHandle t} {relation : Nat} {target : Reference}
    {r : Fin t.toOne.length} (hindex : checkIndex relation t.toOne.length = .ok r)
    (htarget : s.target target = none) :
    setSingle handle relation target s =
      edit handle (fun _ _ body => .ok { body with toOne := setAt body.toOne r none }) s := by
  rw [setSingle, bind_apply, ask_apply, hindex]
  dsimp only
  rw [get_bind_apply, htarget]
  rfl

theorem setSingle_apply_of_some {handle : MutableHandle t} {relation : Nat} {target : Reference}
    {r : Fin t.toOne.length} (hindex : checkIndex relation t.toOne.length = .ok r) {k : ObjectKey}
    (htarget : s.target target = some k) :
    setSingle handle relation target s =
      match s.checkTarget (some k) (t.toOne.get r).target with
      | .error e => (.error e, s)
      | .ok k' =>
        edit handle (fun _ _ body => .ok { body with toOne := setAt body.toOne r (some k') }) s := by
  rw [setSingle, bind_apply, ask_apply, hindex]
  dsimp only
  rw [get_bind_apply, htarget]
  change (get >>= fun s' =>
    (some <$> (liftM (s'.checkTarget (some k) (t.toOne.get r).target) : Action ObjectKey)) >>=
      fun place => edit handle fun _ _ body =>
        .ok { body with toOne := setAt body.toOne r place }) s = _
  rw [get_bind_apply, bind_apply, map_apply, ask_apply]
  rcases s.checkTarget (some k) (t.toOne.get r).target with e | k'
  · rfl
  · rfl

theorem checkIndex_eq_ok {index n : Nat} {i : Fin n} (h : checkIndex index n = .ok i) :
    i.val = index := by
  unfold checkIndex at h
  split at h
  · cases h
    rfl
  · cases h

/-- A to-one relation is set to the target of the reference, which has the declared type, or the
operation fails and changes nothing. -/
theorem setSingle_cases (handle : MutableHandle t) (relation : Nat) (target : Reference)
    (s : Store) :
    (∃ e, setSingle handle relation target s = (.error e, s)) ∨
      ∃ (r : Fin t.toOne.length) (k : ObjectKey) (body : Body t),
        r.val = relation ∧ s.target handle.toReference = some k ∧ s.body t k = .ok body ∧
        (∀ k', s.target target = some k' → s.typeName? (some k') = some (t.toOne.get r).target) ∧
        setSingle handle relation target s = (.ok (), (s.advanceOwner k).setBody k
          { body with toOne := setAt body.toOne r (s.target target) }) := by
  rcases hindex : checkIndex relation t.toOne.length with e | r
  · refine .inl ⟨e, ?_⟩
    rw [setSingle, bind_apply, ask_apply, hindex]
  · have hr := checkIndex_eq_ok hindex
    rcases htarget : s.target target with _ | k'
    · rw [setSingle_apply_of_none hindex htarget]
      rcases setPlace_cases handle r none s with ⟨e, herror⟩ | ⟨k, body, hk, hbody, hrun⟩
      · exact .inl ⟨e, herror⟩
      · exact .inr ⟨r, k, body, hr, hk, hbody, by simp, hrun⟩
    · rw [setSingle_apply_of_some hindex htarget]
      rcases hcheck : s.checkTarget (some k') (t.toOne.get r).target with e | k''
      · exact .inl ⟨e, rfl⟩
      · rcases checkTarget_eq_ok hcheck with ⟨hsame, htype⟩
        cases hsame
        rcases setPlace_cases handle r (some k') s with ⟨e, herror⟩ | ⟨k, body, hk, hbody, hrun⟩
        · exact .inl ⟨e, herror⟩
        · refine .inr ⟨r, k, body, hr, hk, hbody, ?_, hrun⟩
          rintro k'' ⟨⟩
          exact htype

theorem setSingle_changes (handle : MutableHandle t) (relation : Nat)
    (target : Reference) :
    Changes .gain s (setSingle handle relation target s).2 ∨
      Changes .link s (setSingle handle relation target s).2 := by
  rcases setSingle_cases handle relation target s
    with ⟨e, herror⟩ | ⟨r, k, body, -, -, hbody, hplace, hrun⟩
  · exact .inl (by rw [herror])
  · refine .inr ?_
    rw [hrun]
    exact .of_change (.setPlace k body r _ hbody hplace)

end Edit

/-! ## Collections -/

/-- No frame holds the collection, whether it exists or not. -/
def IsUnheld (s : Store) (c : CollectionKey) : Prop :=
  ∀ f frame name, s.frames.get? f = some frame → (name, c) ∉ frame.slots

theorem isLoose_of_get? {c : CollectionKey} {col : Collection} (hunheld : s.IsUnheld c)
    (hcol : s.collections.get? c = some col) : s.isLoose c = true :=
  isLoose_iff.2 ⟨⟨col, hcol⟩, hunheld⟩

theorem exists_of_isLoose {c : CollectionKey} (h : s.isLoose c = true) :
    ∃ col, s.collections.get? c = some col :=
  (isLoose_iff.1 h).1

theorem collectionAs_eq_ok {t : DataType} {c : CollectionKey} {col : Collection}
    (h : s.collectionAs t c = .ok col) : s.collections.get? c = some col ∧ col.type = t := by
  rcases hcol : s.collection c with e | col'
  · simp [collectionAs, hcol, bind, Except.bind] at h
  · by_cases htype : col'.type = t
    · simp [collectionAs, hcol, bind, Except.bind, htype, pure, Except.pure] at h
      subst h
      exact ⟨collection_eq_ok_iff.1 hcol, htype⟩
    · simp [collectionAs, hcol, bind, Except.bind, htype, throw, throwThe,
        MonadExceptOf.throw] at h

theorem newCollection_changes (t : DataType) (subset : Bool) (config : Config) :
    Changes .gain s (newCollection t subset config s).2 := by
  refine .of_change (.found (Collection.empty t subset config) [] rfl (fun _ h => by cases h) ?_)
  cases subset
  · exact .owned [] rfl (by simp) (fun _ _ _ h => by cases h)
  · exact .subset [] rfl

theorem clear_apply {c : CollectionKey} {col : Collection}
    (hcol : s.collections.get? c = some col) :
    clear c s = (.ok (), s.withReset c col col.isSubset) := by
  have hcongr : (s.releaseAll col.storage.objects).collections.modify c
      (fun col => { col with storage := .empty col.isSubset, origin := none }.touch) =
      (s.releaseAll col.storage.objects).collections.modify c
        fun col' => { col' with storage := .empty col.isSubset, origin := none }.touch := by
    refine Arena.modify_congr fun col' hcol' => ?_
    rw [releaseAll_collections, hcol] at hcol'
    cases hcol'
    rfl
  unfold clear
  rw [hcol]
  exact congrArg (fun collections => (Except.ok (),
    { s.releaseAll col.storage.objects with collections })) hcongr

theorem clear_apply_of_none {c : CollectionKey} (hcol : s.collections.get? c = none) :
    clear c s = (.ok (), s) := by
  unfold clear
  rw [hcol]

theorem clear_changes {c : CollectionKey} (hloose : s.isLoose c = true) :
    Changes .loss s (clear c s).2 := by
  obtain ⟨col, hcol⟩ := exists_of_isLoose hloose
  rw [clear_apply hcol]
  exact .of_change (.reset c col col.isSubset hloose hcol)

theorem objects_empty (subset : Bool) : (Storage.empty subset).objects = [] := by
  cases subset <;> rfl

/-- What `discard` leaves of a store. -/
def withoutCollection (s : Store) (c : CollectionKey) : Store :=
  match s.collections.get? c with
  | none => s
  | some col =>
    let reset := s.withReset c col col.isSubset
    { reset with collections := reset.collections.erase c }

theorem discard_apply (c : CollectionKey) (s : Store) :
    discard c s = (.ok (), s.withoutCollection c) := by
  unfold discard withoutCollection
  rcases hcol : s.collections.get? c with _ | col
  · rw [bind_apply_of_ok (clear_apply_of_none hcol), modify_apply,
      Arena.erase_of_get?_eq_none hcol]
  · rw [bind_apply_of_ok (clear_apply hcol), modify_apply]

theorem discard_changes {c : CollectionKey} (hunheld : s.IsUnheld c) :
    Changes .loss s (discard c s).2 := by
  rw [discard_apply]
  unfold withoutCollection
  rcases hcol : s.collections.get? c with _ | col
  · exact .refl
  · have hself := withReset_collections_self hcol col.isSubset
    have hunheld' : (s.withReset c col col.isSubset).IsUnheld c := by
      intro f frame name hframe
      exact hunheld f frame name (by simpa [withReset] using hframe)
    exact .head (.reset c col col.isSubset (isLoose_of_get? hunheld hcol) hcol)
      (.single (.remove c _ (isLoose_of_get? hunheld' hself) hself (objects_empty col.isSubset)))

theorem setCollectionId_changes {c : CollectionKey} (hloose : s.isLoose c = true)
    (id : CollectionId) : Changes .gain s (setCollectionId c id s).2 := by
  rw [setCollectionId, modify_apply]
  exact .of_change (.renumber c id hloose)

theorem objects_of_isEmpty {col : Collection} (h : col.isEmpty = true) :
    col.storage.objects = [] := by
  unfold Collection.isEmpty Collection.size Storage.size at h
  rcases hstorage : col.storage with objects | slots
  · rw [hstorage] at h
    simpa [Storage.objects] using h
  · rfl

/-- The mode is switched if the collection is empty, and it may be set to what it is. -/
theorem setSubset_cases (c : CollectionKey) (subset : Bool) (s : Store) :
    (∃ e, setSubset c subset s = (.error e, s) ∧ ¬ ∃ col, s.collections.get? c = some col ∧
        subset ≠ col.isSubset ∧ col.isEmpty = true) ∨
      ∃ col, s.collections.get? c = some col ∧
        (subset = col.isSubset ∧ setSubset c subset s = (.ok (), s) ∨
          subset ≠ col.isSubset ∧ col.isEmpty = true ∧ setSubset c subset s =
            (.ok (), s.modifyCollection c fun col =>
              { col with storage := .empty subset, origin := none }.touch)) := by
  rw [setSubset, get_bind_apply, bind_apply, ask_apply]
  rcases hcol : s.collection c with e | col
  · refine .inl ⟨e, rfl, ?_⟩
    rintro ⟨col, hget, -⟩
    cases hcol.symm.trans (collection_eq_ok_iff.2 hget)
  · have hget := collection_eq_ok_iff.1 hcol
    dsimp only
    split
    · exact .inr ⟨col, hget, .inl ⟨‹_›, rfl⟩⟩
    · rcases hempty : col.isEmpty
      · refine .inl ⟨_, rfl, ?_⟩
        rintro ⟨col', hcol', -, hempty'⟩
        cases hget.symm.trans hcol'
        cases hempty.symm.trans hempty'
      · exact .inr ⟨col, hget, .inr ⟨‹_›, hempty, rfl⟩⟩

theorem setSubset_changes {c : CollectionKey} (hloose : s.isLoose c = true) (subset : Bool) :
    Changes .loss s (setSubset c subset s).2 := by
  rcases setSubset_cases c subset s with
    ⟨e, hrun, -⟩ | ⟨col, hcol, ⟨-, hrun⟩ | ⟨-, hempty, hrun⟩⟩
  · rw [hrun]
  · rw [hrun]
  · have hreset := Change.reset c col subset hloose hcol
    rw [withReset, objects_of_isEmpty hempty] at hreset
    rw [hrun]
    exact .of_change hreset

/-- A new object that its collection owns from the start is one that is taken up at once. -/
theorem withAdopted_withNewObject (t : DataType) (payload : t.payload.Value) (c : CollectionKey)
    (position : Nat) :
    (s.withNewObject t payload).withAdopted c position s.objects.next =
      ({ s with
        objects := s.objects.insert ⟨t, .owned c position, .ofPayload payload⟩
        collections := s.collections.modify c (appendOwned · s.objects.next) } :
        Store).withHandle (some s.objects.next) := by
  simp only [withAdopted, withNewObject, withHandle, modifyObject, modifyCollection,
    Arena.modify_insert_next]
  rfl

theorem create_changes {t : DataType} {c : CollectionKey} (hloose : s.isLoose c = true)
    (payload : t.payload.Value) : Changes .gain s (create t c payload s).2 := by
  rw [create, get_bind_apply]
  refine changes_ask fun col hcol => ?_
  obtain ⟨hget, htype⟩ := collectionAs_eq_ok hcol
  rcases hsubset : col.isSubset
  · simp only [Bool.false_eq_true, ↓reduceIte]
    rw [get_bind_apply, modify_bind_apply, modify_bind_apply, mutableHandleTo_apply]
    have hnew : (s.withNewObject t payload).objects.get? s.objects.next =
        some ⟨t, .floating 1, .ofPayload payload⟩ :=
      Arena.get?_modify_self Arena.get?_insert_next _
    have hheld : (s.withNewObject t payload).isHeld s.objects.next = true :=
      Arena.any_eq_true_iff.2 ⟨_, _, Arena.get?_insert_next, by simp⟩
    have hadopt := Change.adopt (s := s.withNewObject t payload)
      c s.objects.next col _ 1 hloose hget hsubset hnew htype.symm rfl hheld
    rw [withAdopted_withNewObject] at hadopt
    exact .head (.newObject t payload) (.single hadopt)
  · simp only [↓reduceIte]
    exact .refl

/-- A normal collection takes up a floating object, a subset collection gets a place for an object that
has an owner, or nothing happens. -/
theorem push_cases {t : DataType} (c : CollectionKey) (handle : Handle t) (s : Store) :
    (∃ e, push c handle s = (.error e, s)) ∨
      ∃ col k, s.collections.get? c = some col ∧ s.target handle.toReference = some k ∧
        ((∃ o n, s.objects.get? k = some o ∧ o.type = col.type ∧ o.tracking = .floating n ∧
            col.isSubset = false ∧ push c handle s = (.ok (), s.withAdopted c col.size k)) ∨
          ∃ o owner position, s.objects.get? k = some o ∧ o.type = col.type ∧
            o.tracking = .owned owner position ∧ col.isSubset = true ∧
            push c handle s = (.ok (), s.modifyCollection c (appendSlot · (.linked k)))) := by
  rw [push, get_bind_apply, bind_apply, ask_apply]
  rcases hcol : s.collectionAs t c with e | col
  · exact .inl ⟨e, rfl⟩
  obtain ⟨hget, htype⟩ := collectionAs_eq_ok hcol
  dsimp only
  rw [get_bind_apply, get_bind_apply, bind_apply, ask_apply]
  rcases hbody : s.bodyOf t (s.target handle.toReference) with e | ⟨k, body⟩
  · exact .inl ⟨e, rfl⟩
  obtain ⟨htarget, hbody⟩ := bodyOf_eq_ok hbody
  obtain ⟨tracking, ho, -⟩ := body_eq_ok_iff.1 hbody
  dsimp only
  rw [get_bind_apply, bind_apply, ask_apply, object_eq_ok_iff.2 ho]
  dsimp only
  -- a floating object is taken up, an owned one gets a place, and a released one is refused
  rcases tracking with n | ⟨owner, position⟩ | _
  · rcases hsubset : col.isSubset
    · exact .inr ⟨col, k, hget, htarget, .inl ⟨_, n, ho, htype.symm, rfl, hsubset, rfl⟩⟩
    · exact .inl ⟨_, rfl⟩
  · rcases hsubset : col.isSubset
    · exact .inl ⟨_, rfl⟩
    · exact .inr ⟨col, k, hget, htarget,
        .inr ⟨_, owner, position, ho, htype.symm, rfl, hsubset, rfl⟩⟩
  · exact .inl ⟨_, rfl⟩

theorem push_changes {t : DataType} {c : CollectionKey}
    (hloose : s.isLoose c = true) (handle : Handle t) : Changes .gain s (push c handle s).2 := by
  rcases push_cases c handle s with
    ⟨e, hrun⟩ | ⟨col, k, hcol, htarget, ⟨o, n, ho, htype, hfloating, hnormal, hrun⟩ |
      ⟨o, owner, position, ho, htype, howned, hsubset, hrun⟩⟩
  · rw [hrun]
  · rw [hrun]
    exact .of_change
      (.adopt c k col o n hloose hcol hnormal ho htype hfloating (isHeld_of_target htarget))
  · rw [hrun]
    exact .of_change (.enlist c k col o owner position hloose hcol hsubset ho htype howned)

/-! ## Access by position -/

/-- What stands at a position that leads to an object. -/
theorem objectAtPosition_eq_ok {col : Collection} {index : Nat} {k : ObjectKey}
    (hk : objectAtPosition col index = .ok k) :
    (∃ objects, col.storage = .owned objects ∧ objects[index]? = some k) ∨
      ∃ slots, col.storage = .subset slots ∧ slots[index]? = some (.linked k) := by
  unfold objectAtPosition at hk
  rcases hstorage : col.storage with objects | slots
  · simp only [hstorage] at hk
    rcases hi : objects[index]? with _ | k'
    · simp only [hi] at hk
      cases hk
    · simp only [hi] at hk
      cases hk
      exact .inl ⟨objects, rfl, hi⟩
  · simp only [hstorage] at hk
    rcases hi : slots[index]? with _ | _ | k'
    · simp only [hi] at hk
      cases hk
    · simp only [hi] at hk
      cases hk
    · simp only [hi] at hk
      cases hk
      exact .inr ⟨slots, rfl, hi⟩

/-- An object found at a position of a normal collection is owned there. -/
theorem owned_of_objectAtPosition (h : WellFormed s) {c : CollectionKey} {col : Collection}
    {index : Nat} {k : ObjectKey} (hcol : s.collections.get? c = some col)
    (hnormal : col.isSubset = false) (hk : objectAtPosition col index = .ok k) :
    ∃ o, s.objects.get? k = some o ∧ o.tracking = .owned c index := by
  rcases objectAtPosition_eq_ok hk with ⟨objects, hstorage, hi⟩ | ⟨slots, hstorage, -⟩
  · obtain ⟨o, ho, -, htracking⟩ := h.listed c col objects index k hcol hstorage hi
    exact ⟨o, ho, htracking⟩
  · simp [Collection.isSubset, hstorage, Storage.isSubset] at hnormal

/-- An object found at a position was taken up by a collection and has its type. -/
theorem objectAtPosition_placed (h : WellFormed s) {c : CollectionKey} {col : Collection}
    {index : Nat} {k : ObjectKey} (hcol : s.collections.get? c = some col)
    (hk : objectAtPosition col index = .ok k) : s.IsPlaced col.type k := by
  rcases objectAtPosition_eq_ok hk with ⟨objects, hstorage, hi⟩ | ⟨slots, hstorage, hi⟩
  · obtain ⟨o, ho, htype, htracking⟩ := h.listed c col objects index k hcol hstorage hi
    exact ⟨o, ho, htype, by simp [htracking]⟩
  · exact h.slots c col slots k hcol hstorage (Array.mem_of_getElem? hi)

/-- A place leads to an object that exists. -/
theorem existsObject_of_objectAtPosition (h : WellFormed s) {c : CollectionKey} {col : Collection}
    {index : Nat} {k : ObjectKey} (hcol : s.collections.get? c = some col)
    (hk : objectAtPosition col index = .ok k) : s.existsObject k = true := by
  obtain ⟨o, ho, -, hnot⟩ := objectAtPosition_placed h hcol hk
  rcases htracking : o.tracking with n | ⟨d, j⟩ | _
  · exact absurd htracking (hnot n)
  · simp [existsObject, ho, htracking]
  · rcases objectAtPosition_eq_ok hk with ⟨objects, hstorage, hi⟩ | ⟨slots, hstorage, hi⟩
    · obtain ⟨o', ho', -, howned⟩ := h.listed c col objects index k hcol hstorage hi
      rw [ho] at ho'
      cases ho'
      rw [htracking] at howned
      cases howned
    · have hinSubset : s.isInSubset k = true := by
        refine Arena.any_eq_true_iff.2 ⟨c, col, hcol, ?_⟩
        rw [List.contains_iff_mem, mem_linked_of_subset hstorage]
        exact Array.mem_of_getElem? hi
      simp [existsObject, ho, htracking, hinSubset]

theorem objectAt_changes (h : WellFormed s) (c : CollectionKey) (index : Nat) :
    Changes .gain s (objectAt c index s).2 := by
  rw [objectAt, get_bind_apply]
  refine changes_ask fun col hcol => changes_ask fun k hk => ?_
  rw [refer_apply]
  exact hold_some_changes (existsObject_of_objectAtPosition h (collection_eq_ok_iff.1 hcol) hk)

theorem getObject_changes (h : WellFormed s) (t : DataType) (c : CollectionKey) (index : Nat) :
    Changes .gain s (getObject t c index s).2 := by
  rw [getObject, get_bind_apply]
  refine changes_ask fun col hcol => changes_ask fun k hk => ?_
  rw [handleTo_apply]
  exact hold_some_changes (existsObject_of_objectAtPosition h (collectionAs_eq_ok hcol).1 hk)

theorem getMutable_changes (h : WellFormed s) (t : DataType) (c : CollectionKey) (index : Nat) :
    Changes .gain s (getMutable t c index s).2 := by
  rw [getMutable, get_bind_apply]
  refine changes_ask fun col hcol => changes_ask fun k hk => ?_
  rw [mutableHandleTo_apply]
  exact hold_some_changes (existsObject_of_objectAtPosition h (collectionAs_eq_ok hcol).1 hk)

/-! ## Rebuilding -/

/-- A rebuild that succeeds returns the key that the store had for the next collection. -/
theorem rebuild_changes (t : DataType) (b : Buffers) (id : CollectionId) (config : Config) :
    Changes .gain s (rebuild t b id config s).2 ∧
      (rebuild t b id config s).2.frames = s.frames ∧
      ∀ c, (rebuild t b id config s).1 = .ok c → c = s.collections.next ∧
        ∃ col, (rebuild t b id config s).2.collections.get? c = some col := by
  rcases rebuild_cases t b id config s with ⟨e, herror⟩ | ⟨htype, hparts⟩
  · rw [herror]
    exact ⟨.refl, rfl, fun c hc => by cases hc⟩
  · rcases hparts with ⟨ids, hsubset, hids⟩ | ⟨contents, bodies, hsubset, hdecode⟩
    · rw [rebuild_apply_subset htype hsubset hids]
      refine ⟨.of_change (.found _ [] rfl ?_ (founds_rebuiltSubset ids)), withFounded_frames, ?_⟩
      · rintro origin ⟨⟩
        exact ⟨_, _, rfl⟩
      · rintro c ⟨⟩
        refine ⟨rfl, rebuiltSubset t config id ids, ?_⟩
        rw [withFounded_collections]
        exact Arena.get?_insert_next
    · rw [rebuild_apply_owned htype hsubset hdecode]
      have hfounds : s.Founds (rebuiltOwned config id s.objects.next bodies.length contents)
          bodies := founds_rebuiltOwned hdecode
      refine ⟨.of_change (.found (rebuiltOwned config id s.objects.next bodies.length contents)
        bodies rfl ?_ hfounds), withFounded_frames, ?_⟩
      · rintro origin ⟨⟩
        exact ⟨_, _, rfl⟩
      · rintro c ⟨⟩
        refine ⟨rfl, rebuiltOwned config id s.objects.next bodies.length contents, ?_⟩
        rw [withFounded_collections]
        exact Arena.get?_insert_next

theorem build_changes (registry : Registry) (b : Buffers) (id : CollectionId) (config : Config) :
    Changes .gain s (build registry b id config s).2 ∧
      (build registry b id config s).2.frames = s.frames ∧
      ∀ c, (build registry b id config s).1 = .ok c → c = s.collections.next ∧
        ∃ col, (build registry b id config s).2.collections.get? c = some col := by
  unfold build
  rcases registry.find? b.type with _ | t
  · exact ⟨.refl, rfl, fun c hc => by cases hc⟩
  · exact rebuild_changes t b id config

/-! ## Resolution -/

section Resolve

variable {resolver : Resolver}

/-- An address leads to the object at its position in the collection of its number. -/
theorem resolveObject_eq_ok_iff {id : ObjectId} {k : ObjectKey} :
    s.resolveObject resolver id = .ok k ↔
      ∃ c col i, resolver id.collection = some c ∧ s.collections.get? c = some col ∧
        id.position? = some i ∧ objectAtPosition col i = .ok k := by
  unfold Store.resolveObject
  constructor
  · intro hk
    rcases hresolver : resolver id.collection with _ | c
    · rw [hresolver] at hk
      cases hk
    · rw [hresolver] at hk
      rcases bind_eq_ok_iff.1 hk with ⟨col, hcol, hplace⟩
      rcases hposition : id.position? with _ | i
      · rw [hposition] at hplace
        cases hplace
      · rw [hposition] at hplace
        exact ⟨c, col, i, rfl, collection_eq_ok_iff.1 hcol, rfl, hplace⟩
  · rintro ⟨c, col, i, hresolver, hcol, hposition, hplace⟩
    rw [hresolver]
    refine bind_eq_ok_iff.2 ⟨col, collection_eq_ok_iff.2 hcol, ?_⟩
    rw [hposition]
    exact hplace

theorem resolveObject_placed (h : WellFormed s) {id : ObjectId} {k : ObjectKey}
    (hk : s.resolveObject resolver id = .ok k) : ∃ t, s.IsPlaced t k := by
  obtain ⟨c, col, i, -, hcol, -, hplace⟩ := resolveObject_eq_ok_iff.1 hk
  exact ⟨col.type, objectAtPosition_placed h hcol hplace⟩

/-- What an address leads to exists. -/
theorem existsObject_of_resolveObject (h : WellFormed s) {id : ObjectId} {k : ObjectKey}
    (hk : s.resolveObject resolver id = .ok k) : s.existsObject k = true := by
  obtain ⟨c, col, i, -, hcol, -, hplace⟩ := resolveObject_eq_ok_iff.1 hk
  exact existsObject_of_objectAtPosition h hcol hplace

theorem resolveTyped_eq_ok (h : WellFormed s) {type : String} {id : ObjectId} {k : ObjectKey}
    (hk : s.resolveTyped resolver type id = .ok k) :
    s.typeName? (some k) = some type ∧ s.resolveObject resolver id = .ok k := by
  obtain ⟨k', hk', hrest⟩ := bind_eq_ok_iff.1 hk
  obtain ⟨t, o, ho, -⟩ := resolveObject_placed h hk'
  have hname : s.typeName? (some k') = some o.type.name := typeName?_eq_some_iff.2 ⟨o, ho, rfl⟩
  rw [hname] at hrest
  dsimp only at hrest
  split at hrest
  · rename_i hfound
    cases hrest
    exact ⟨by rw [hname, hfound], hk'⟩
  · cases hrest

theorem resolveRequired_eq_ok (h : WellFormed s) {source type : String} {id : ObjectId}
    {k : ObjectKey} (hk : s.resolveRequired resolver source type id = .ok k) :
    s.typeName? (some k) = some type ∧ s.resolveObject resolver id = .ok k := by
  unfold resolveRequired at hk
  split at hk
  · cases hk
  · exact resolveTyped_eq_ok h hk

theorem resolveOptional_eq_ok_some (h : WellFormed s) {type : String} {id : ObjectId}
    {k : ObjectKey} (hk : s.resolveOptional resolver type id = .ok (some k)) :
    s.typeName? (some k) = some type ∧ s.resolveObject resolver id = .ok k := by
  unfold resolveOptional at hk
  split at hk
  · cases hk
  · obtain ⟨k', hk', heq⟩ := map_eq_ok_iff.1 hk
    cases heq
    exact resolveTyped_eq_ok h hk'

/-- The object of a resolved place was taken up by a collection and has the right type. -/
theorem resolveSlot_placed (h : WellFormed s) {c : CollectionKey} {col : Collection}
    {slots : Array Slot} {slot : Slot} {k : ObjectKey} (hcol : s.collections.get? c = some col)
    (hstorage : col.storage = .subset slots) (hslot : slot ∈ slots)
    (hk : s.resolveSlot resolver col.type slot = .ok k) : s.IsPlaced col.type k := by
  rcases slot with id | k'
  · obtain ⟨k', hk', hexpect⟩ := bind_eq_ok_iff.1 hk
    obtain ⟨hsome, o, ho, htype⟩ := expectType_eq_ok hexpect
    cases hsome
    obtain ⟨t, o', ho', -, hnot⟩ := resolveObject_placed h (resolveRequired_eq_ok h hk').2
    rw [ho] at ho'
    cases ho'
    exact ⟨o, ho, htype, hnot⟩
  · cases hk
    exact h.slots c col slots k hcol hstorage hslot

theorem originAs_self (col : Collection) : col.originAs col.type = col.origin := by
  simp [Collection.originAs]

theorem isUnresolved_of_stored {col : Collection} {id : CollectionId}
    {toMany : Vector (List ObjectId) col.type.toMany.length}
    {toOne : Vector (List ObjectId) col.type.toOne.length}
    (h : col.origin = some ⟨id, .stored toMany toOne⟩) : col.isUnresolved = true := by
  unfold Collection.isUnresolved
  rw [h]

theorem setReferences_changes (h : WellFormed s) (resolver : Resolver) (c : CollectionKey) :
    Changes .gain s (setReferences resolver c s).2 := by
  rw [setReferences, get_bind_apply]
  refine changes_ask fun col hcol => ?_
  have hget := collection_eq_ok_iff.1 hcol
  dsimp only
  rw [originAs_self]
  rcases horigin : col.origin with _ | ⟨id, ⟨toMany, toOne⟩ | many⟩
  · exact .refl
  · dsimp only
    rcases hstorage : col.storage with objects | slots
    -- every address of a normal collection is found before the first link is set
    · dsimp only
      rw [get_bind_apply]
      refine changes_ask fun many hmany => changes_ask fun one hone => ?_
      rw [modify_apply]
      have hmany' := fun r => mapM_eq_ok_iff.1 (tryOfFn_apply hmany r)
      have hone' := fun r => mapM_eq_ok_iff.1 (tryOfFn_apply hone r)
      refine .of_change (.resolveOwned c col objects id toMany toOne many one hget hstorage
        horigin (fun r => (hmany' r).length_eq.symm) (fun r => (hone' r).length_eq.symm) ?_ ?_)
      · intro r k hk
        obtain ⟨id', -, hid'⟩ := exists_of_mapM_eq_ok (tryOfFn_apply hmany r) hk
        exact (resolveRequired_eq_ok h hid').1
      · intro r k hk
        obtain ⟨id', -, hid'⟩ := exists_of_mapM_eq_ok (tryOfFn_apply hone r) hk
        exact (resolveOptional_eq_ok_some h hid').1
    · dsimp only
      rw [get_bind_apply, bind_apply, liftExcept_apply]
      rcases hlinked : slots.toList.mapM (s.resolveSlot resolver col.type) with e | linked
      · exact .refl
      · dsimp only
        rw [modify_apply]
        refine .of_change (.resolveSubset c col ⟨id, .stored toMany toOne⟩ slots linked hget
          hstorage horigin (isUnresolved_of_stored horigin) ?_)
        intro k hk
        obtain ⟨slot, hslot, hresolved⟩ := exists_of_mapM_eq_ok hlinked hk
        exact resolveSlot_placed h hget hstorage (Array.mem_toList_iff.1 hslot) hresolved
  · exact .refl

theorem forEach_setReferences_changes (h : WellFormed s) (resolver : Resolver)
    (cs : List CollectionKey) : Changes .gain s (forEach (setReferences resolver) cs s).2 :=
  (changes_forEach (P := WellFormed) (fun c _ _ h =>
    ⟨setReferences_changes h resolver c, (setReferences_changes h resolver c).wellFormed h⟩) h).1

theorem resolveAll_changes (h : WellFormed s) (cs : List CollectionKey) :
    Changes .gain s (resolveAll cs s).2 := by
  rw [resolveAll, get_bind_apply]
  exact forEach_setReferences_changes h _ _

theorem resolve_changes (h : WellFormed s) (resolver : Resolver) (id : ObjectId) :
    Changes .gain s (resolve resolver id s).2 := by
  rw [resolve, get_bind_apply]
  refine changes_ask fun k hk => ?_
  rw [refer_apply]
  exact hold_some_changes (existsObject_of_resolveObject h hk)

end Resolve

end EventModel.Store
