import EventModel.Proofs.Store.Counting
import EventModel.Proofs.Store.ReadBack
import EventModel.Proofs.Store.Resolution

/-!
# Emptying a collection

A collection is emptied when it is cleared and when it is dropped. The objects that it owned are
released for ever: whatever still points at one of them finds it unavailable in every later store, and
none of the objects made later is taken for it. Nothing else is touched. The order in which two
collections are emptied does not matter.

Places of a subset collection keep a released object in memory, and so a relation of some other object
may show it. Emptying the subset collection lets it go, and leaves an empty place in that relation
(`emptying_isolated`).
-/

namespace EventModel.Store

variable {s s' later : Store} {c d : CollectionKey} {k : ObjectKey}

/-! ## The operations -/

/-- How a collection loses all that it holds: it is cleared, or it is dropped. -/
inductive Emptying
  | clear
  | discard

namespace Emptying

def run (how : Emptying) (c : CollectionKey) : Action Unit :=
  match how with
  | .clear => Store.clear c
  | .discard => Store.discard c

/-- What is left of the collection itself. -/
def leaves (how : Emptying) (col : Collection) : Option Collection :=
  match how with
  | .clear => some { col with storage := .empty col.isSubset, origin := none }.touch
  | .discard => none

end Emptying

/-- Emptying releases what the collection owns and changes the collection, and nothing else. -/
structure Empties (how : Emptying) (c : CollectionKey) (s s' : Store) : Prop where
  objects : ∀ k, s'.objects.get? k =
    if k ∈ s.ownedBy c then (s.objects.get? k).map Object.release else s.objects.get? k
  nextObject : s'.objects.next = s.objects.next
  collections : ∀ d, s'.collections.get? d =
    if d = c then (s.collections.get? c).bind how.leaves else s.collections.get? d
  nextCollection : s'.collections.next = s.collections.next
  frames : s'.frames = s.frames
  handles : s'.handles = s.handles
  serial : s'.serial = s.serial

theorem releaseAll_serial (s : Store) (ks : List ObjectKey) :
    (s.releaseAll ks).serial = s.serial := by
  induction ks generalizing s with
  | nil => rfl
  | cons k rest ih => exact ih (s.modifyObject k Object.release)

theorem empties_clear (c : CollectionKey) (s : Store) : Empties .clear c s (clear c s).2 := by
  rcases hcol : s.collections.get? c with _ | col
  · have howned : s.ownedBy c = [] := by simp [ownedBy, hcol]
    rw [clear_apply_of_none hcol]
    refine ⟨fun k => by simp [howned], rfl, fun d => ?_, rfl, rfl, rfl, rfl⟩
    by_cases hd : d = c
    · rw [hd, if_pos rfl, hcol, Option.bind_none]
    · rw [if_neg hd]
  · have howned : s.ownedBy c = col.storage.objects := by simp [ownedBy, hcol]
    rw [clear_apply hcol]
    refine ⟨?objects, releaseAll_next s _, ?collections, by simp [withReset], by simp [withReset],
      by simp [withReset], releaseAll_serial s _⟩
    case objects =>
      rw [howned]
      exact withReset_get? s c col col.isSubset
    case collections =>
      intro d
      by_cases hd : d = c
      · rw [hd, if_pos rfl, withReset_collections_self hcol, hcol]
        rfl
      · rw [if_neg hd, withReset_collections_ne hd]

theorem empties_discard (c : CollectionKey) (s : Store) :
    Empties .discard c s (discard c s).2 := by
  have hclear := empties_clear c s
  have hok : (clear c s).1 = .ok () := by
    rcases hcol : s.collections.get? c with _ | col
    · rw [clear_apply_of_none hcol]
    · rw [clear_apply hcol]
  rw [discard, bind_apply_of_ok (Prod.ext hok rfl), modify_apply]
  refine { hclear with collections := fun d => ?_, nextCollection := ?_ }
  · change ((clear c s).2.collections.erase c).get? d = _
    rw [Arena.get?_erase, hclear.collections]
    by_cases hd : d = c
    · rw [hd, if_pos rfl, if_pos rfl]
      rcases s.collections.get? c <;> rfl
    · rw [if_neg (Ne.symm hd), if_neg hd, if_neg hd]
  · exact (Arena.next_erase _ c).trans hclear.nextCollection

theorem Emptying.empties (how : Emptying) (c : CollectionKey) (s : Store) :
    Empties how c s (how.run c s).2 := by
  cases how with
  | clear => exact empties_clear c s
  | discard => exact empties_discard c s

/-! ## The order of two collections -/

namespace Empties

variable {how how' : Emptying} {s₁ s₂ t₁ t₂ : Store}

theorem ownedBy (h : Empties how c s s') (d : CollectionKey) :
    s'.ownedBy d = if d = c then [] else s.ownedBy d := by
  unfold Store.ownedBy
  rw [h.collections]
  by_cases hd : d = c
  · rw [if_pos hd, if_pos hd]
    rcases s.collections.get? c with _ | col
    · rfl
    · cases how with
      | clear => exact objects_empty col.isSubset
      | discard => rfl
  · rw [if_neg hd, if_neg hd]

/-- Two collections may be emptied in either order. -/
theorem comm (h : Empties how c s s₁) (h' : Empties how' d s₁ s₂) (g : Empties how' d s t₁)
    (g' : Empties how c t₁ t₂) : s₂ = t₂ := by
  have hobjects : s₂.objects = t₂.objects := by
    refine Arena.eq_of_get? ?_ fun k => ?_
    · rw [h'.nextObject, h.nextObject, g'.nextObject, g.nextObject]
    · rw [h'.objects, h.objects, g'.objects, g.objects, h.ownedBy, g.ownedBy]
      by_cases hd : d = c
      · simp [hd]
      -- an object of either collection is released, whichever comes first
      · rw [if_neg hd, if_neg (Ne.symm hd)]
        by_cases hc : k ∈ s.ownedBy c <;> by_cases hk : k ∈ s.ownedBy d <;> simp [hc, hk]
  have hcollections : s₂.collections = t₂.collections := by
    refine Arena.eq_of_get? ?_ fun e => ?_
    · rw [h'.nextCollection, h.nextCollection, g'.nextCollection, g.nextCollection]
    · rw [h'.collections, h.collections, g'.collections, g.collections, h.collections,
        g.collections]
      by_cases hd : d = c
      · subst hd
        by_cases he : e = d
        -- the collection that is emptied twice is gone as soon as it is discarded once
        · simp only [he, ↓reduceIte]
          rcases s.collections.get? d with _ | col
          · rfl
          · cases how <;> cases how' <;> rfl
        · simp [he]
      · by_cases he : e = d
        · subst he
          simp [hd]
        · by_cases he' : e = c <;> simp [he, he', Ne.symm hd]
  exact eq_of_fields hobjects hcollections
    (h'.frames.trans (h.frames.trans (g'.frames.trans g.frames).symm))
    (h'.handles.trans (h.handles.trans (g'.handles.trans g.handles).symm))
    (h'.serial.trans (h.serial.trans (g'.serial.trans g.serial).symm))

end Empties

/-! ## What is gone -/

/-- Nothing can be asked of the object, nothing of it can be changed, and no link to it can be stored. -/
structure IsUnavailable (s : Store) (k : ObjectKey) : Prop where
  available : s.isAvailable (some k) = false
  idOf : s.idOf (some k) = .error .unavailable
  linkId : s.linkId k = .error .unavailable
  bodyOf : ∀ t, s.bodyOf t (some k) = .error .unavailable

theorem isUnavailable_of_released (hk : s.tracking? k = some .released) : s.IsUnavailable k := by
  rcases tracking?_eq_some_iff.1 hk with ⟨o, ho, hreleased⟩
  have hid : s.idOf (some k) = .error .unavailable := by
    simp [idOf, available, ho, Object.isReleased, hreleased, Except.map]
  refine ⟨by simp [isAvailable, ho, Object.isReleased, hreleased], hid, ?_, fun t => ?_⟩
  · unfold linkId
    split
    · exact hid
    · rfl
  · rw [bodyOf, Store.body, object_eq_ok_iff.2 ho]
    simp [Object.isReleased, hreleased, bind, Except.bind, throw, throwThe, MonadExceptOf.throw]

/-- A released object stays released. -/
theorem Steps.released (h : WellFormed s) (steps : Steps s later)
    (hk : s.tracking? k = some .released) : later.tracking? k = some .released := by
  induction steps with
  | refl => exact hk
  | tail earlier step ih =>
    rcases step.ages (Steps.wellFormed h earlier) with ⟨kind, hages⟩
    have hage := hages k
    rw [ih] at hage
    generalize Store.tracking? _ k = tracking at hage
    cases hage
    rfl

/-- The handle was made, and points at the object or at nothing. -/
def ReachesOnly (s : Store) (r : Reference) (k : ObjectKey) : Prop :=
  r.key < s.handles.next ∧ (s.target r = some k ∨ s.target r = none)

theorem reachesOnly_of_target {r : Reference} (hr : s.target r = some k) : s.ReachesOnly r k :=
  ⟨Arena.lt_next_of_get? (target_eq_some_iff.1 hr), .inl hr⟩

section ReachesOnly

variable {r : Reference} {kind : ChangeKind}

theorem ReachesOnly.of_handles (h : s.ReachesOnly r k)
    (hnext : s.handles.next ≤ s'.handles.next)
    (htarget : s'.target r = s.target r ∨ s'.target r = none) : s'.ReachesOnly r k := by
  refine ⟨Nat.lt_of_lt_of_le h.1 hnext, ?_⟩
  rcases htarget with hsame | hnone
  · rw [hsame]
    exact h.2
  · exact .inr hnone

/-- A new handle leaves all others alone. -/
theorem ReachesOnly.insert (h : s.ReachesOnly r k) {target : Option ObjectKey}
    (hhandles : s'.handles = s.handles.insert target) : s'.ReachesOnly r k := by
  refine h.of_handles ?_ (.inl ?_)
  · rw [hhandles, Arena.next_insert]
    exact Nat.le_succ _
  · rw [Store.target, hhandles, Arena.get?_insert, if_neg (Nat.ne_of_lt h.1), Store.target]

/-- No change gives a handle another target. -/
theorem ReachesOnly.change (h : s.ReachesOnly r k) (hwell : WellFormed s)
    (change : Change s kind s') : s'.ReachesOnly r k := by
  rcases change.treatsHandles hwell with
    ⟨target, -⟩ | ⟨t, payload⟩ | ⟨r', k', -⟩ | ⟨r', -⟩ | hkept
  · exact h.insert (withHandle_handles s target)
  · exact h.insert (withHandle_handles _ (some s.objects.next))
  · refine h.of_handles (Nat.le_of_eq (Arena.next_modify ..).symm) ?_
    have hget : (s.withoutTarget r'.key k').handles.get? r.key = _ :=
      Arena.get?_modify s.handles r'.key (fun _ => none) r.key
    unfold Store.target
    rw [hget]
    split
    · right
      cases s.handles.get? r.key <;> rfl
    · exact .inl rfl
  · refine h.of_handles (Nat.le_of_eq (Arena.next_erase ..).symm) ?_
    unfold Store.target
    rw [Arena.get?_erase]
    split
    · exact .inr rfl
    · exact .inl rfl
  · refine h.of_handles (by rw [hkept.handles]) (.inl ?_)
    rw [Store.target, hkept.handles, Store.target]

theorem Changes.reachesOnly (hwell : WellFormed s) (h : s.ReachesOnly r k)
    (changes : Changes kind s s') : s'.ReachesOnly r k := by
  induction changes with
  | refl => exact h
  | tail earlier change ih => exact ih.change (Changes.wellFormed hwell earlier) change

theorem Steps.reachesOnly (hwell : WellFormed s) (h : s.ReachesOnly r k) (steps : Steps s later) :
    later.ReachesOnly r k := by
  induction steps with
  | refl => exact h
  | tail earlier step ih =>
    have hmid := Steps.wellFormed hwell earlier
    rcases step.changes hmid with ⟨kind, hchanges⟩
    exact hchanges.reachesOnly hmid ih

end ReachesOnly

/-! ## What stays -/

/-- What is asked of the object itself is answered as before. -/
structure AnswersSame (s s' : Store) (k : ObjectKey) : Prop where
  idOf : s'.idOf (some k) = s.idOf (some k)
  available : s'.isAvailable (some k) = s.isAvailable (some k)
  payload : ∀ t, s'.payload t (some k) = s.payload t (some k)
  members : ∀ t m, s'.members t (some k) m = s.members t (some k) m
  relatedSize : ∀ t r, s'.relatedSize t (some k) r = s.relatedSize t (some k) r

theorem answersSame_of_get? (hobject : s'.objects.get? k = s.objects.get? k)
    (howner : ∀ d, s.ownerOf? k = some d → s'.collections.get? d = s.collections.get? d) :
    AnswersSame s s' k := by
  have hbody : ∀ t, s'.bodyOf t (some k) = s.bodyOf t (some k) := by
    intro t
    rw [bodyOf, bodyOf, body_congr hobject]
  have havailable : s'.available (some k) = s.available (some k) := by
    rw [available, available, Option.bind_some, Option.bind_some, hobject]
  refine ⟨?_, ?_, fun t => ?_, fun t m => ?_, fun t r => ?_⟩
  · rw [idOf, idOf, havailable]
    rcases hfound : s.available (some k) with e | o
    · rfl
    · refine congrArg Except.ok ?_
      rcases available_eq_ok hfound with ⟨_, ⟨⟩, ho, -⟩
      unfold addressOf
      split
      · rename_i d i htracking
        rw [howner d (ownerOf?_of_tracking ho htracking)]
      · rfl
  · rw [isAvailable, isAvailable, Option.bind_some, Option.bind_some, hobject]
  · rw [payload, payload, hbody]
  · rw [Store.members, Store.members, hbody]
  · rw [relatedSize, relatedSize, hbody]

/-- The object was released, a place of `c` points at it, and neither a handle nor a place of another
subset collection does. -/
structure IsKeptOnlyBy (s : Store) (c : CollectionKey) (k : ObjectKey) : Prop where
  released : s.tracking? k = some .released
  unheld : s.isHeld k = false
  place : ∃ col, s.collections.get? c = some col ∧ k ∈ col.storage.linked
  only : ∀ d col, s.collections.get? d = some col → k ∈ col.storage.linked → d = c

/-- What a place of a relation shows after `c` was emptied, compared with what it showed before. -/
inductive StillShows (s : Store) (c : CollectionKey) : Option ObjectKey → Option ObjectKey → Prop
  | nothing : StillShows s c none none
  | same {k : ObjectKey} (howner : s.ownerOf? k ≠ some c) (hkept : ¬ s.IsKeptOnlyBy c k) :
      StillShows s c (some k) (some k)
  | owned {k : ObjectKey} {place : Option ObjectKey} (howner : s.ownerOf? k = some c)
      (hplace : place = some k ∨ place = none) : StillShows s c (some k) place
  | kept {k : ObjectKey} (hkept : s.IsKeptOnlyBy c k) : StillShows s c (some k) none

theorem mem_ownedBy_iff (h : WellFormed s) : k ∈ s.ownedBy c ↔ s.ownerOf? k = some c := by
  unfold Store.ownedBy
  constructor
  · intro hk
    rcases hcol : s.collections.get? c with _ | col
    · rw [hcol] at hk
      cases hk
    · rw [hcol] at hk
      rcases exists_getElem?_of_mem_objects hk with ⟨objects, i, hstorage, hi⟩
      rcases h.listed c col objects i k hcol hstorage hi with ⟨o, ho, -, htracking⟩
      exact ownerOf?_of_tracking ho htracking
  · intro hk
    rcases ownerOf?_eq_some_iff.1 hk with ⟨i, howned⟩
    rcases h.listsAt_iff.2 howned with ⟨col, objects, hcol, hstorage, hi⟩
    rw [hcol]
    exact mem_objects_of_getElem? hstorage hi

namespace Empties

variable {how : Emptying}

theorem linked_nil (h : Empties how c s s') {col : Collection}
    (hcol : s'.collections.get? c = some col) : col.storage.linked = [] := by
  rw [h.collections, if_pos rfl] at hcol
  rcases Option.bind_eq_some_iff.1 hcol with ⟨old, -, hleaves⟩
  cases how with
  | clear =>
    cases hleaves
    cases old.isSubset <;> rfl
  | discard => cases hleaves

theorem get?_of_other (h : Empties how c s s') (hwell : WellFormed s) (hk : s.ownerOf? k ≠ some c) :
    s'.objects.get? k = s.objects.get? k := by
  rw [h.objects, if_neg (mt (mem_ownedBy_iff hwell).1 hk)]

theorem released (h : Empties how c s s') (hwell : WellFormed s) (hk : s.ownerOf? k = some c) :
    s'.tracking? k = some .released := by
  rcases ownerOf?_eq_some_iff.1 hk with ⟨i, howned⟩
  rcases tracking?_eq_some_iff.1 howned with ⟨o, ho, -⟩
  rw [tracking?, h.objects, if_pos ((mem_ownedBy_iff hwell).2 hk), ho]
  rfl

theorem answersSame (h : Empties how c s s') (hwell : WellFormed s) (hk : s.ownerOf? k ≠ some c) :
    AnswersSame s s' k := by
  refine answersSame_of_get? (h.get?_of_other hwell hk) fun d hd => ?_
  rw [h.collections, if_neg]
  rintro rfl
  exact hk hd

theorem isInSubset_iff (h : Empties how c s s') :
    s'.isInSubset k = true ↔
      ∃ d col, d ≠ c ∧ s.collections.get? d = some col ∧ k ∈ col.storage.linked := by
  unfold isInSubset
  rw [Arena.any_eq_true_iff]
  constructor
  · rintro ⟨d, col, hcol, hk⟩
    have hd : d ≠ c := by
      rintro rfl
      rw [h.linked_nil hcol] at hk
      cases hk
    rw [h.collections, if_neg hd] at hcol
    exact ⟨d, col, hd, hcol, List.contains_iff_mem.1 hk⟩
  · rintro ⟨d, col, hd, hcol, hk⟩
    exact ⟨d, col, by rw [h.collections, if_neg hd, hcol], List.contains_iff_mem.2 hk⟩

theorem isHeld (h : Empties how c s s') (k : ObjectKey) : s'.isHeld k = s.isHeld k := by
  rw [Store.isHeld, Store.isHeld, h.handles]

/-- What only the places of `c` kept is let go. -/
theorem existsObject_of_isKeptOnlyBy (h : Empties how c s s') (hwell : WellFormed s)
    (hkept : s.IsKeptOnlyBy c k) : s'.existsObject k = false := by
  rcases tracking?_eq_some_iff.1 hkept.released with ⟨o, ho, htracking⟩
  have howner : s.ownerOf? k ≠ some c := by
    simp [ownerOf?, ho, Object.owner?, htracking]
  have hplace : s'.isInSubset k = false := by
    rw [← Bool.not_eq_true, h.isInSubset_iff]
    rintro ⟨d, col, hd, hcol, hk⟩
    exact hd (hkept.only d col hcol hk)
  simp [existsObject, h.get?_of_other hwell howner, ho, htracking, h.isHeld, hkept.unheld,
    hplace]

/-- Everything else that `c` did not own exists as before. -/
theorem existsObject_of_not_isKeptOnlyBy (h : Empties how c s s') (hwell : WellFormed s)
    (howner : s.ownerOf? k ≠ some c) (hkept : ¬ s.IsKeptOnlyBy c k) :
    s'.existsObject k = s.existsObject k := by
  unfold existsObject
  rw [h.get?_of_other hwell howner]
  rcases ho : s.objects.get? k with _ | o
  · rfl
  · dsimp only
    rcases htracking : o.tracking with n | ⟨d, i⟩ | _
    · exact h.isHeld k
    · rfl
    · dsimp only
      rw [h.isHeld]
      rcases hheld : s.isHeld k
      · rw [Bool.false_or, Bool.false_or, Bool.eq_iff_iff, h.isInSubset_iff, isInSubset,
          Arena.any_eq_true_iff]
        constructor
        · rintro ⟨d, col, -, hcol, hk⟩
          exact ⟨d, col, hcol, List.contains_iff_mem.2 hk⟩
        -- some other collection has a place for it, or else only places of `c` would keep it
        · rintro ⟨d, col, hcol, hk⟩
          by_contra hnone
          have honly : ∀ d col, s.collections.get? d = some col → k ∈ col.storage.linked → d = c := by
            intro d col hcol hk
            by_contra hd
            exact hnone ⟨d, col, hd, hcol, hk⟩
          have hk := List.contains_iff_mem.1 hk
          obtain rfl := honly d col hcol hk
          exact hkept ⟨by rw [tracking?_of_get? ho, htracking], hheld, ⟨col, hcol, hk⟩, honly⟩
      · rfl

theorem stillShows (h : Empties how c s s') (hwell : WellFormed s) (k : ObjectKey) :
    s.StillShows c (s.placeOf k) (s'.placeOf k) := by
  by_cases howner : s.ownerOf? k = some c
  · rcases ownerOf?_eq_some_iff.1 howner with ⟨i, howned⟩
    rcases tracking?_eq_some_iff.1 howned with ⟨o, ho, htracking⟩
    have hexists : s.existsObject k = true := by simp [existsObject, ho, htracking]
    rw [placeOf, if_pos hexists]
    refine .owned howner ?_
    unfold placeOf
    split
    · exact .inl rfl
    · exact .inr rfl
  · by_cases hkept : s.IsKeptOnlyBy c k
    · have hgone := h.existsObject_of_isKeptOnlyBy hwell hkept
      rw [show s'.placeOf k = none by simp [placeOf, hgone]]
      unfold placeOf
      split
      · exact .kept hkept
      · exact .nothing
    · rw [show s'.placeOf k = s.placeOf k by
        rw [placeOf, placeOf, h.existsObject_of_not_isKeptOnlyBy hwell howner hkept]]
      unfold placeOf
      split
      · exact .same howner hkept
      · exact .nothing

/-- The relations of an object that `c` did not own lead where they led. -/
theorem related (h : Empties how c s s') (hwell : WellFormed s) (hk : s.ownerOf? k ≠ some c)
    (t : DataType) (r : Nat) :
    Parallel (List.Forall₂ (s.StillShows c)) (s.related t (some k) r)
      (s'.related t (some k) r) := by
  have hobject := h.get?_of_other hwell hk
  have horigin : s'.originOf t k = s.originOf t k := by
    refine originOf_of_ownerOf? hobject (fun d hd => ?_) t
    rw [h.collections, if_neg]
    rintro rfl
    exact hk hd
  unfold Store.related
  rcases checkIndex r t.toMany.length with e | r'
  · exact .error e
  · rw [bodyOf, bodyOf, body_congr hobject]
    rcases s.body t k with e | body
    · exact .error e
    · change Parallel _ (s.links k body r' >>= _) (s'.links k body r' >>= _)
      rw [links_congr horigin]
      rcases s.links k body r' with e | ks
      · exact .error e
      · refine .ok ?_
        rw [List.forall₂_map_left_iff, List.forall₂_map_right_iff, List.forall₂_same]
        exact fun k' _ => h.stillShows hwell k'

theorem single (h : Empties how c s s') (hwell : WellFormed s) (hk : s.ownerOf? k ≠ some c)
    (t : DataType) (r : Nat) :
    Parallel (Option.Rel (s.StillShows c)) (s.single t (some k) r) (s'.single t (some k) r) := by
  unfold Store.single
  rcases checkIndex r t.toOne.length with e | r'
  · exact .error e
  · rw [bodyOf, bodyOf, body_congr (h.get?_of_other hwell hk)]
    rcases s.body t k with e | body
    · exact .error e
    · dsimp only [bind, Except.bind, pure, Except.pure]
      rcases body.toOne[r'] with _ | k'
      · exact .ok .none
      · exact .ok (.some (h.stillShows hwell k'))

end Empties

/-! ## Isolated and final -/

/-- What emptying `c` does to everything that can be asked of a store. -/
structure IsIsolated (c : CollectionKey) (s s' : Store) : Prop where
  /-- Whatever points at an object that `c` owned, be it a handle, a reference or a link of a relation,
  finds it unavailable in every later store. -/
  gone : ∀ k, s.ownerOf? k = some c → ∀ later, Steps s' later → later.IsUnavailable k
  /-- A handle to such an object is never available again, and differs from all handles to objects that
  are made later. -/
  handles : ∀ r k, s.target r = some k → s.ownerOf? k = some c → ∀ later, Steps s' later →
    later.isAvailable (later.target r) = false ∧
      ∀ r' k', s'.tracking? k' = none → later.target r' = some k' → later.target r' ≠ later.target r
  /-- Every handle points where it did. -/
  targets : s'.target = s.target
  answers : ∀ k, s.ownerOf? k ≠ some c → AnswersSame s s' k
  related : ∀ k, s.ownerOf? k ≠ some c → ∀ t r,
    Parallel (List.Forall₂ (s.StillShows c)) (s.related t (some k) r) (s'.related t (some k) r)
  single : ∀ k, s.ownerOf? k ≠ some c → ∀ t r,
    Parallel (Option.Rel (s.StillShows c)) (s.single t (some k) r) (s'.single t (some k) r)
  /-- No object changes with a subset collection. -/
  subset : (∀ col, s.collections.get? c = some col → col.isSubset = true) → s'.objects = s.objects

theorem Empties.isIsolated {how : Emptying} (h : Empties how c s s') (hwell : WellFormed s)
    (hwell' : WellFormed s') : IsIsolated c s s' where
  gone k hk later hsteps :=
    isUnavailable_of_released (Steps.released hwell' hsteps (h.released hwell hk))
  handles r k hr hk later hsteps := by
    have hreleased := h.released hwell hk
    have htarget : s'.target r = some k := by rwa [target, h.handles]
    -- a handle never points at another object later, it can only be dropped
    rcases (Steps.reachesOnly hwell' (reachesOnly_of_target htarget) hsteps).2 with hlater | hlater
    · rw [hlater]
      refine ⟨(isUnavailable_of_released (Steps.released hwell' hsteps hreleased)).available, ?_⟩
      intro r' k' hnew hr'
      rw [hr']
      rintro ⟨⟩
      rw [hreleased] at hnew
      cases hnew
    · rw [hlater]
      refine ⟨rfl, fun r' k' _ hr' => ?_⟩
      rw [hr']
      exact Option.some_ne_none k'
  targets := by
    funext r
    rw [target, target, h.handles]
  answers k hk := h.answersSame hwell hk
  related k hk := h.related hwell hk
  single k hk := h.single hwell hk
  subset hsubset := by
    refine Arena.eq_of_get? h.nextObject fun k => ?_
    rw [h.objects, if_neg]
    rw [mem_ownedBy_iff hwell, ownerOf?_eq_some_iff]
    rintro ⟨i, hk⟩
    exact hwell.not_owned_by_subset hsubset hk

/-- In every reachable store, to clear or to drop a collection reaches nothing but the collection and
the objects that it owns, which are gone for ever, and lets go what only its places kept; two
collections may be emptied in either order. -/
theorem emptying_isolated (h : Reachable s) (hloose : s.isLoose c = true) (how : Emptying) :
    IsIsolated c s (how.run c s).2 ∧
      ∀ how' : Emptying, ∀ d : CollectionKey,
        (how'.run d (how.run c s).2).2 = (how.run c (how'.run d s).2).2 := by
  have hstep : Step s (how.run c s).2 := by
    cases how with
    | clear => exact .clear c hloose
    | discard => exact .discard c hloose
  refine ⟨(how.empties c s).isIsolated h.wellFormed (h.step hstep).wellFormed, fun how' d => ?_⟩
  exact (how.empties c s).comm (how'.empties d _) (how'.empties d s) (how.empties c _)

/-- A relation leads to an object that was released and is kept by a place of a subset collection. -/
def keptStore : Store :=
  let linked := (addRelated (t := nodeType) ⟨⟨⟨1⟩⟩⟩ 0 ⟨0⟩ (withNode 6 (withNode 5 .empty))).2
  let picked := (push (t := nodeType) 2 ⟨⟨0⟩⟩ (newCollection nodeType true {} linked).2).2
  (clear 0 (drop ⟨0⟩ picked).2).2

theorem reachable_keptStore : Reachable keptStore := by
  have hfirst := reachable_withNode 5 .empty (by decide +kernel)
  have hsecond := reachable_withNode 6 hfirst (by decide +kernel)
  have hlinked := hsecond.step (.addRelated (t := nodeType) ⟨⟨⟨1⟩⟩⟩ 0 ⟨0⟩)
  have hsubset := hlinked.step (.newCollection nodeType true {})
  have hpicked := hsubset.step (.push (t := nodeType) 2 ⟨⟨0⟩⟩ (by decide +kernel))
  exact (hpicked.step (.drop ⟨0⟩)).step (.clear 0 (by decide +kernel))

/-- The collection of the object with the relation is dropped, or the subset collection is cleared, and
then the relation shows an empty place. -/
theorem emptying_isolated_keptStore :
    keptStore.isLoose 1 = true ∧ keptStore.ownerOf? 1 = some 1 ∧
      IsIsolated 1 keptStore (Emptying.discard.run 1 keptStore).2 ∧
      keptStore.isLoose 2 = true ∧ IsIsolated 2 keptStore (Emptying.clear.run 2 keptStore).2 ∧
      keptStore.related nodeType (some 1) 0 = .ok [some 0] ∧
      (Emptying.clear.run 2 keptStore).2.related nodeType (some 1) 0 = .ok [none] := by
  have hloose : keptStore.isLoose 1 = true := by decide +kernel
  have hsubset : keptStore.isLoose 2 = true := by decide +kernel
  exact ⟨hloose, by decide +kernel, (emptying_isolated reachable_keptStore hloose .discard).1,
    hsubset, (emptying_isolated reachable_keptStore hsubset .clear).1, by decide +kernel,
    by decide +kernel⟩

/-- A target that the emptied collection did not own may leave the relation all the same. -/
theorem not_keepsTargets_of_clear :
    ¬ ∀ (s : Store) (c : CollectionKey), Reachable s → s.isLoose c = true →
      ∀ (t : DataType) (k target : ObjectKey) (r i : Nat) (places places' : List (Option ObjectKey)),
        s.ownerOf? k ≠ some c → s.ownerOf? target ≠ some c →
        s.related t (some k) r = .ok places → places[i]? = some (some target) →
        (clear c s).2.related t (some k) r = .ok places' → places'[i]? = some (some target) := by
  intro hkeeps
  have hplace := hkeeps keptStore 2 reachable_keptStore (by decide +kernel) nodeType 1 0 0 0
    [some 0] [none] (by decide +kernel) (by decide +kernel) (by decide +kernel) rfl
    (by decide +kernel)
  cases hplace

end EventModel.Store
