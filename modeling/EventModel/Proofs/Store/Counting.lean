import EventModel.Proofs.Store.Ownership
import EventModel.Proofs.Store.Temporaries

/-!
# Counting handles

A floating object counts its handles itself: the count goes up with each handle that is made and down
with each that is given back. The store also knows all handles. The two numbers agree as long as the
count fits its word, so that an object is gone when its own count has reached zero.
-/

namespace EventModel.Store

variable {s s' : Store} {past : List Store} {kind : ChangeKind} {k : ObjectKey}

/-! ## The handles of a store -/

/-- The number of handles that point at any object. -/
def liveHandles (s : Store) : Nat :=
  s.handles.countP Option.isSome

theorem handleCount_le_liveHandles (s : Store) (k : ObjectKey) :
    s.handleCount k ≤ s.liveHandles := by
  refine Arena.countP_mono fun target htarget => ?_
  rw [beq_iff_eq] at htarget
  rw [htarget, Option.isSome_some]

theorem isHeld_eq_false_iff : s.isHeld k = false ↔ s.handleCount k = 0 :=
  Arena.countP_eq_zero_iff.symm

theorem handleCount_withHandle (target : Option ObjectKey) (k : ObjectKey) :
    (s.withHandle target).handleCount k = s.handleCount k + if target = some k then 1 else 0 := by
  rw [handleCount, withHandle_handles, Arena.countP_insert]
  simp only [beq_iff_eq]
  rfl

theorem handleCount_withoutTarget {r : Reference} {target : ObjectKey}
    (hr : s.target r = some target) (k : ObjectKey) :
    (s.withoutTarget r.key target).handleCount k + (if target = k then 1 else 0) =
      s.handleCount k := by
  have hcount := Arena.countP_modify (target_eq_some_iff.1 hr) (fun _ => none) (· == some k)
  simp only [beq_iff_eq, Option.some.injEq, reduceCtorEq, ↓reduceIte, Nat.add_zero] at hcount
  exact hcount

/-- A handle that points at nothing counts for nothing. -/
theorem handleCount_forget {r : Reference} (hr : s.target r = none) (k : ObjectKey) :
    Store.handleCount { s with handles := s.handles.erase r.key } k = s.handleCount k := by
  unfold handleCount
  dsimp only
  rcases hget : s.handles.get? r.key with _ | target
  · rw [Arena.erase_of_get?_eq_none hget]
  · obtain rfl : target = none := by
      rw [Store.target, hget] at hr
      exact hr
    simpa using Arena.countP_erase hget (· == some k)

/-! ## The count of an object -/

/-- No collection has ever owned the object. -/
def IsFloating (s : Store) (k : ObjectKey) : Prop :=
  ∃ n, s.tracking? k = some (.floating n)

theorem floating_withHandle {target : Option ObjectKey} {n : UInt32}
    (h : (s.withHandle target).tracking? k = some (.floating n)) :
    ∃ m, s.tracking? k = some (.floating m) ∧ n = if target = some k then m + 1 else m := by
  rcases target with _ | k'
  · exact ⟨n, h, by simp⟩
  · obtain ⟨o', ho', htracking⟩ := tracking?_eq_some_iff.1 h
    rw [withHandle_some_objects] at ho'
    rcases Arena.get?_modify_eq_some ho' with ⟨rfl, o, ho, rfl⟩ | ⟨hne, ho⟩
    · rcases hm : o.tracking with m | ⟨c, i⟩ | _
      · refine ⟨m, by rw [tracking?_of_get? ho, hm], ?_⟩
        simpa [Object.acquire, hm, eq_comm] using htracking
      all_goals simp [Object.acquire, hm] at htracking
    · exact ⟨n, by rw [tracking?_of_get? ho, htracking], by simp [hne]⟩

theorem floating_withoutTarget {r : HandleKey} {target : ObjectKey} {n : UInt32}
    (h : (s.withoutTarget r target).tracking? k = some (.floating n)) :
    ∃ m, s.tracking? k = some (.floating m) ∧
      n = if target = k then if m = 0 then 0 else m - 1 else m := by
  obtain ⟨o', ho', htracking⟩ := tracking?_eq_some_iff.1 h
  rcases Arena.get?_modify_eq_some ho' with ⟨rfl, o, ho, rfl⟩ | ⟨hne, ho⟩
  · have ho : s.objects.get? target = some o := ho
    rcases hm : o.tracking with m | ⟨c, i⟩ | _
    · refine ⟨m, by rw [tracking?_of_get? ho, hm], ?_⟩
      simpa [Object.letGo, hm, eq_comm] using htracking
    all_goals simp [Object.letGo, hm] at htracking
  · have ho : s.objects.get? k = some o' := ho
    exact ⟨n, by rw [tracking?_of_get? ho, htracking], by simp [hne]⟩

theorem Quiet.isFloating (q : Quiet s s') (h : s.IsFloating k) : s'.IsFloating k := by
  obtain ⟨n, hn⟩ := h
  obtain ⟨o, ho, htracking⟩ := tracking?_eq_some_iff.1 hn
  obtain ⟨o', ho', hsettled⟩ := q.symm.object ho
  obtain ⟨m, hm⟩ := Object.isFloating_of_settled_eq hsettled.symm htracking
  exact ⟨m, by rw [tracking?_of_get? ho', hm]⟩

/-- A floating object exists while a handle points at it. -/
theorem IsFloating.existsObject_eq (h : s.IsFloating k) : s.existsObject k = s.isHeld k := by
  obtain ⟨n, hn⟩ := h
  obtain ⟨o, ho, htracking⟩ := tracking?_eq_some_iff.1 hn
  simp [existsObject, ho, htracking]

/-! ## What a change does to handles -/

/-- No handle has changed and no floating object was counted anew. -/
structure KeepsHandles (s s' : Store) : Prop where
  handles : s'.handles = s.handles
  floating : ∀ k n, s'.tracking? k = some (.floating n) → s.tracking? k = some (.floating n)
  /-- Only a handle can take a floating object to a collection. -/
  unheld : ∀ k n, s.tracking? k = some (.floating n) → s.isHeld k = false →
    s'.tracking? k = some (.floating n)

theorem KeepsHandles.of_tracking (hhandles : s'.handles = s.handles)
    (htracking : ∀ k, s'.tracking? k = s.tracking? k) : KeepsHandles s s' where
  handles := hhandles
  floating k n hn := by rwa [htracking] at hn
  unheld k n hn _ := by rwa [htracking]

theorem KeepsHandles.handleCount (h : KeepsHandles s s') (k : ObjectKey) :
    s'.handleCount k = s.handleCount k := by
  rw [Store.handleCount, h.handles, Store.handleCount]

@[simp]
theorem assignAllSingles_handles {t : DataType}
    (columns : Vector (List (Option ObjectKey)) t.toOne.length) (position : Nat)
    (ks : List ObjectKey) : (assignAllSingles columns position ks s).handles = s.handles := by
  refine assignAllSingles_congr columns (·.handles) ?_ position ks s
  intro position k s
  rcases assignAt_eq columns position k s with heq | ⟨body, -, heq⟩
  · rw [heq]
  · rw [heq, setBody_handles]

theorem keepsHandles_withFounded (col : Collection) (bodies : List (Body col.type)) :
    KeepsHandles s (s.withFounded col bodies) where
  handles := addOwned_handles _ _ _ _
  floating k n hn := by
    obtain ⟨o, ho, htracking⟩ := tracking?_eq_some_iff.1 hn
    rcases addOwned_get?_eq_some ho with hold | ⟨i, hi, -, rfl⟩
    · exact tracking?_eq_some_iff.2 ⟨o, hold, htracking⟩
    · cases htracking
  unheld k n hn _ := by
    obtain ⟨o, ho, htracking⟩ := tracking?_eq_some_iff.1 hn
    exact tracking?_eq_some_iff.2 ⟨o, withFounded_get?_of_get? ho, htracking⟩

theorem keepsHandles_withAdopted {c : CollectionKey} {i : Nat} {target : ObjectKey}
    (hheld : s.isHeld target = true) : KeepsHandles s (s.withAdopted c i target) := by
  have hothers : ∀ k, target ≠ k →
      (s.withAdopted c i target).tracking? k = s.tracking? k := by
    intro k hk
    exact tracking?_congr (withAdopted_get?_ne (Ne.symm hk) c i)
  refine ⟨rfl, fun k n hn => ?_, fun k n hn hunheld => ?_⟩
  · by_cases hk : target = k
    · obtain ⟨o, ho, htracking⟩ := tracking?_eq_some_iff.1 hn
      rcases Arena.get?_modify_eq_some ho with ⟨-, o', -, rfl⟩ | ⟨hne, -⟩
      · cases htracking
      · exact absurd hk hne
    · rwa [hothers k hk] at hn
  · have hk : target ≠ k := by
      rintro rfl
      rw [hheld] at hunheld
      cases hunheld
    rwa [hothers k hk]

/-- The objects that a reset releases were not floating. -/
theorem keepsHandles_withReset (h : WellFormed s) {c : CollectionKey} {col : Collection}
    (hcol : s.collections.get? c = some col) (subset : Bool) :
    KeepsHandles s (s.withReset c col subset) := by
  refine ⟨releaseAll_handles s _, fun k n hn => ?_, fun k n hn _ => ?_⟩
  · obtain ⟨o, ho, htracking⟩ := tracking?_eq_some_iff.1 hn
    rw [withReset_get?] at ho
    split at ho
    · obtain ⟨o', -, rfl⟩ := Option.map_eq_some_iff.1 ho
      cases htracking
    · exact tracking?_eq_some_iff.2 ⟨o, ho, htracking⟩
  · obtain ⟨o, ho, htracking⟩ := tracking?_eq_some_iff.1 hn
    refine tracking?_eq_some_iff.2 ⟨o, ?_, htracking⟩
    rw [withReset_get?, if_neg, ho]
    rw [h.mem_objects_iff hcol ho, Object.owner?, htracking]
    simp

/-- Handles are made one by one and given back one by one, and other changes leave them alone. -/
inductive TreatsHandles (s : Store) : ChangeKind → Store → Prop
  | isMade (target : Option ObjectKey) (h : ∀ k, target = some k → s.existsObject k = true) :
      TreatsHandles s .gain (s.withHandle target)
  | isFirst (t : DataType) (payload : t.payload.Value) :
      TreatsHandles s .gain (s.withNewObject t payload)
  | isUnlinked (r : Reference) (k : ObjectKey) (h : s.target r = some k) :
      TreatsHandles s .loss (s.withoutTarget r.key k)
  | isForgotten (r : Reference) (h : s.target r = none) :
      TreatsHandles s .loss { s with handles := s.handles.erase r.key }
  | areKept {kind : ChangeKind} {s' : Store} (h : KeepsHandles s s') : TreatsHandles s kind s'

theorem Change.treatsHandles (h : WellFormed s) (change : Change s kind s') :
    TreatsHandles s kind s' := by
  cases change
  case hold target htarget => exact .isMade target htarget
  case newObject t payload => exact .isFirst t payload
  case unlink r k hk => exact .isUnlinked r k hk
  case forget r hr => exact .isForgotten r hr
  case access k =>
    exact .areKept (.of_tracking (by simp) fun k => tracking?_congr (by simp))
  case edit t k old new _ _ _ _ _ | setPlace t k old _ _ _ _ =>
    refine .areKept (.of_tracking (by simp) fun k' => ?_)
    rw [tracking?_setBody]
    exact tracking?_congr (by rw [advanceOwner_objects])
  case found col bodies _ _ _ => exact .areKept (keepsHandles_withFounded col bodies)
  case adopt hheld => exact .areKept (keepsHandles_withAdopted hheld)
  case enlist => exact .areKept (.of_tracking rfl fun _ => rfl)
  case reset c col subset _ hcol => exact .areKept (keepsHandles_withReset h hcol subset)
  case remove => exact .areKept (.of_tracking rfl fun _ => rfl)
  case renumber => exact .areKept (.of_tracking rfl fun _ => rfl)
  case resolveSubset => exact .areKept (.of_tracking rfl fun _ => rfl)
  case resolveOwned c col objects id _ _ many one _ _ _ _ _ _ _ =>
    exact .areKept (.of_tracking (by simp) (tracking?_assignAllSingles one 0 objects.toList))
  case keep => exact .areKept (.of_tracking rfl fun _ => rfl)
  case unkeep => exact .areKept (.of_tracking rfl fun _ => rfl)
  case newFrame => exact .areKept (.of_tracking rfl fun _ => rfl)
  case adoptIds => exact .areKept (.of_tracking rfl fun _ => rfl)
  case setParameters => exact .areKept (.of_tracking rfl fun _ => rfl)
  case putSlot => exact .areKept (.of_tracking rfl fun _ => rfl)
  case takeSlot => exact .areKept (.of_tracking rfl fun _ => rfl)
  case eraseFrame => exact .areKept (.of_tracking rfl fun _ => rfl)

/-! ## The invariant -/

/-- The count of a floating object is the number of its handles, as far as a word can hold it. -/
def CountsModulo (s : Store) : Prop :=
  ∀ k n, s.tracking? k = some (.floating n) → n = UInt32.ofNat (s.handleCount k)

theorem CountsModulo.withHandle (h : s.CountsModulo) (target : Option ObjectKey) :
    (s.withHandle target).CountsModulo := by
  intro k n hn
  -- a new handle adds one to the count, in words and in numbers
  obtain ⟨m, hm, rfl⟩ := floating_withHandle hn
  rw [handleCount_withHandle, h k m hm]
  split
  · rw [UInt32.ofNat_add]
    rfl
  · rfl

/-- No handle points at an object that was not made yet. -/
theorem WellFormed.handleCount_next (h : WellFormed s) : s.handleCount s.objects.next = 0 := by
  rw [← isHeld_eq_false_iff, isHeld, Arena.any_eq_false_iff]
  intro key target hget
  rw [beq_eq_false_iff_ne]
  rintro rfl
  obtain ⟨o, ho⟩ := h.handles key _ hget
  exact Nat.lt_irrefl _ (Arena.lt_next_of_get? ho)

theorem CountsModulo.keeps (hcounts : s.CountsModulo) (hkeeps : KeepsHandles s s') :
    s'.CountsModulo := by
  intro k n hn
  rw [hkeeps.handleCount]
  exact hcounts k n (hkeeps.floating k n hn)

/-- Gains keep the invariant whatever the number of handles. -/
theorem CountsModulo.gain (h : WellFormed s) (hcounts : s.CountsModulo)
    (change : Change s .gain s') : s'.CountsModulo := by
  cases change.treatsHandles h with
  | isMade target _ => exact hcounts.withHandle target
  | isFirst t payload =>
    refine CountsModulo.withHandle ?_ _
    intro k n hn
    obtain ⟨o, ho, htracking⟩ := tracking?_eq_some_iff.1 hn
    rcases Arena.get?_insert_eq_some ho with hold | ⟨rfl, rfl⟩
    · exact hcounts k n (tracking?_eq_some_iff.2 ⟨o, hold, htracking⟩)
    · cases htracking
      change 0 = UInt32.ofNat (s.handleCount s.objects.next)
      rw [h.handleCount_next]
      rfl
  | areKept hkeeps => exact hcounts.keeps hkeeps

theorem CountsModulo.link (h : WellFormed s) (hcounts : s.CountsModulo)
    (change : Change s .link s') : s'.CountsModulo := by
  cases change.treatsHandles h with
  | areKept hkeeps => exact hcounts.keeps hkeeps

/-- A count below the bound goes down by one with the number of handles; beyond it, a count of zero
would stay. -/
theorem CountsModulo.loss (h : WellFormed s) (hcounts : s.CountsModulo)
    (hbound : ∀ k, s.handleCount k < 2 ^ 32) (change : Change s .loss s') : s'.CountsModulo := by
  cases change.treatsHandles h with
  | isUnlinked r target hr =>
    intro k n hn
    obtain ⟨m, hm, rfl⟩ := floating_withoutTarget hn
    have hcount := handleCount_withoutTarget hr k
    split
    · rename_i hk
      rw [if_pos hk] at hcount
      have hne : m ≠ 0 := by
        intro hzero
        have hmod := congrArg UInt32.toNat ((hcounts k m hm).symm.trans hzero)
        rw [UInt32.toNat_ofNat_of_lt' (hbound k)] at hmod
        change s.handleCount k = 0 at hmod
        omega
      rw [if_neg hne, hcounts k m hm, ← hcount, UInt32.ofNat_add]
      exact UInt32.add_sub_cancel _ _
    · rename_i hk
      rw [if_neg hk] at hcount
      rw [hcounts k m hm, ← hcount, Nat.add_zero]
  | isForgotten r hr =>
    intro k n hn
    rw [handleCount_forget hr]
    exact hcounts k n hn
  | areKept hkeeps => exact hcounts.keeps hkeeps

/-- Losses never add a handle. -/
theorem Change.handleCount_le (h : WellFormed s) (change : Change s .loss s') (k : ObjectKey) :
    s'.handleCount k ≤ s.handleCount k := by
  cases change.treatsHandles h with
  | isUnlinked r target hr =>
    have hcount := handleCount_withoutTarget hr k
    omega
  | isForgotten r hr => exact Nat.le_of_eq (handleCount_forget hr k)
  | areKept hkeeps => exact Nat.le_of_eq (hkeeps.handleCount k)

theorem CountsModulo.step (h : WellFormed s) (hcounts : s.CountsModulo)
    (hbound : ∀ k, s.handleCount k < 2 ^ 32) (step : Step s s') : s'.CountsModulo := by
  obtain ⟨kind, hchanges⟩ := step.changes h
  cases kind with
  | gain =>
    have hboth : WellFormed s' ∧ s'.CountsModulo := by
      -- the changes of a step are all of one kind, and each keeps the counts
      clear step
      induction hchanges with
      | refl => exact ⟨h, hcounts⟩
      | tail _ change ih => exact ⟨change.wellFormed ih.1, ih.2.gain ih.1 change⟩
    exact hboth.2
  | link =>
    have hboth : WellFormed s' ∧ s'.CountsModulo := by
      clear step
      induction hchanges with
      | refl => exact ⟨h, hcounts⟩
      | tail _ change ih => exact ⟨change.wellFormed ih.1, ih.2.link ih.1 change⟩
    exact hboth.2
  | loss =>
    -- the bound goes along, because the handles become fewer from change to change
    have hall : WellFormed s' ∧ s'.CountsModulo ∧ ∀ k, s'.handleCount k < 2 ^ 32 := by
      clear step
      induction hchanges with
      | refl => exact ⟨h, hcounts, hbound⟩
      | tail _ change ih =>
        obtain ⟨hwell, hcounts, hbound⟩ := ih
        exact ⟨change.wellFormed hwell, hcounts.loss hwell hbound change,
          fun k => Nat.lt_of_le_of_lt (change.handleCount_le hwell k) (hbound k)⟩
    exact hall.2.1

/-! ## Objects that are gone -/

/-- A floating object without handles does not exist any more. -/
structure IsGone (s : Store) (k : ObjectKey) : Prop where
  floating : s.IsFloating k
  count : s.handleCount k = 0

theorem IsGone.existsObject (h : s.IsGone k) : s.existsObject k = false := by
  rw [h.floating.existsObject_eq, isHeld_eq_false_iff, h.count]

/-- What is gone never comes back. -/
theorem IsGone.change (h : WellFormed s) (hk : s.IsGone k) (change : Change s kind s') :
    s'.IsGone k := by
  cases change.treatsHandles h with
  | isMade target htarget =>
    refine ⟨(quiet_withHandle s target).isFloating hk.floating, ?_⟩
    -- a handle is made for objects that exist only
    have hne : target ≠ some k := by
      rintro rfl
      have hexists := htarget k rfl
      rw [hk.existsObject] at hexists
      cases hexists
    rw [handleCount_withHandle, if_neg hne, hk.count]
  | isFirst t payload =>
    obtain ⟨n, hn⟩ := hk.floating
    obtain ⟨o, ho, htracking⟩ := tracking?_eq_some_iff.1 hn
    refine ⟨(quiet_withHandle _ _).isFloating ⟨n, tracking?_eq_some_iff.2
      ⟨o, Arena.get?_insert_of_get? ho, htracking⟩⟩, ?_⟩
    -- the new object is another one
    have hne : some s.objects.next ≠ some k := by
      rintro ⟨⟩
      exact Nat.lt_irrefl _ (Arena.lt_next_of_get? ho)
    rw [withNewObject, handleCount_withHandle, if_neg hne]
    exact hk.count
  | isUnlinked r target hr =>
    refine ⟨(quiet_withoutTarget s r.key target).isFloating hk.floating, ?_⟩
    have hcount := handleCount_withoutTarget hr k
    have hzero := hk.count
    omega
  | isForgotten r hr => exact ⟨hk.floating, (handleCount_forget hr k).trans hk.count⟩
  | areKept hkeeps =>
    obtain ⟨n, hn⟩ := hk.floating
    exact ⟨⟨n, hkeeps.unheld k n hn (isHeld_eq_false_iff.2 hk.count)⟩,
      (hkeeps.handleCount k).trans hk.count⟩

theorem IsGone.step (h : WellFormed s) (hk : s.IsGone k) (step : Step s s') : s'.IsGone k := by
  obtain ⟨kind, hchanges⟩ := step.changes h
  have hboth : WellFormed s' ∧ s'.IsGone k := by
    clear step
    induction hchanges with
    | refl => exact ⟨h, hk⟩
    | tail _ change ih => exact ⟨change.wellFormed ih.1, ih.2.change ih.1 change⟩
  exact hboth.2

theorem Run.isGone (h : Run (s :: past)) (k : ObjectKey) :
    ∀ t ∈ s :: past, t.IsGone k → s.IsGone k := by
  refine h.induct (P := fun s past => ∀ t ∈ s :: past, t.IsGone k → s.IsGone k) ?_ ?_
  · intro t ht hk
    cases List.mem_singleton.1 ht
    exact hk
  · intro s s' past h step ih t ht hk
    rcases List.mem_cons.1 ht with rfl | hpast
    · exact hk
    · exact (ih t hpast hk).step h.wellFormed step

/-! ## Counting in a run -/

theorem handlesOfFloating?_eq_some_iff {n : Nat} :
    s.handlesOfFloating? (some k) = some n ↔
      ∃ m : UInt32, s.tracking? k = some (.floating m) ∧ m.toNat = n := by
  rcases ho : s.objects.get? k with _ | ⟨t, tracking, body⟩
  · simp [handlesOfFloating?, tracking?, ho]
  · cases tracking <;> simp [handlesOfFloating?, tracking?, ho]

/-- What a run that passed the stores `past` ensures about handles and floating objects of `s`. -/
structure CountsHandles (past : List Store) (s : Store) : Prop where
  /-- A floating object counts exactly the handles that point at it. -/
  count : ∀ k, s.IsFloating k → s.handlesOfFloating? (some k) = some (s.handleCount k)
  /-- It exists until its count is zero. -/
  existence : ∀ k, s.IsFloating k →
    (s.existsObject k = true ↔ s.handlesOfFloating? (some k) ≠ some 0)
  /-- From then on each link of a to-many relation to it leads to an empty place. -/
  related : ∀ t source own (body : Body t) (r : Fin t.toMany.length) links,
    s.bodyOf t source = .ok (own, body) → s.links own body r = .ok links →
      ∃ places, s.related t source r = .ok places ∧ places.length = links.length ∧
        ∀ (p : Nat) k, links[p]? = some k → s.IsFloating k →
          places[p]? = some (if s.handleCount k = 0 then none else some k)
  /-- So does each to-one relation. -/
  single : ∀ t source own (body : Body t) (r : Fin t.toOne.length) k,
    s.bodyOf t source = .ok (own, body) → body.toOne[r] = some k → s.IsFloating k →
      s.single t source r = .ok (some (if s.handleCount k = 0 then none else some k))
  /-- An object that is gone is gone for ever. -/
  gone : ∀ t ∈ past, ∀ k, t.IsFloating k → t.existsObject k = false →
    s.IsFloating k ∧ s.existsObject k = false
  /-- An object that a collection has taken up is never counted again. -/
  adopted : ∀ t ∈ s :: past, ∀ c i k, t.ListsAt c i k → s.handlesOfFloating? (some k) = none
  /-- The handles that accessors make, also those for a while, are made and given back by steps. -/
  accessors : ∀ t (handle : Handle t) relation,
    Steps s (relatedReferences handle relation s).2 ∧
    Steps s (singleReference handle relation s).2 ∧
    ∀ u, Steps s (relatedHandles u handle relation s).2 ∧
      Steps s (singleHandle u handle relation s).2

theorem Run.countsModulo (h : Run (s :: past)) :
    (∀ t ∈ s :: past, t.liveHandles < 2 ^ 32) → s.CountsModulo := by
  refine h.induct (P := fun s past => (∀ t ∈ s :: past, t.liveHandles < 2 ^ 32) →
    s.CountsModulo) ?_ ?_
  · intro _ k n hn
    simp [tracking?, Store.empty, Arena.get?] at hn
  · intro s s' past h step ih hbound
    have hpast : ∀ t ∈ s :: past, t.liveHandles < 2 ^ 32 :=
      fun t ht => hbound t (List.mem_cons_of_mem s' ht)
    have hs := hpast s List.mem_cons_self
    exact (ih hpast).step h.wellFormed
      (fun k => Nat.lt_of_le_of_lt (handleCount_le_liveHandles s k) hs) step

theorem IsFloating.placeOf_eq (h : s.IsFloating k) :
    s.placeOf k = if s.handleCount k = 0 then none else some k := by
  rw [placeOf, h.existsObject_eq]
  by_cases hzero : s.handleCount k = 0
  · rw [isHeld_eq_false_iff.2 hzero, if_pos hzero, if_neg Bool.false_ne_true]
  · have hheld : s.isHeld k = true := by
      rw [← Bool.not_eq_false, isHeld_eq_false_iff]
      exact hzero
    rw [hheld, if_neg hzero, if_pos rfl]

/-- As long as fewer than `2 ^ 32` handles are alive at once, floating objects are counted right. -/
theorem Run.countsHandles (h : Run (s :: past))
    (hbound : ∀ t ∈ s :: past, t.liveHandles < 2 ^ 32) : CountsHandles past s := by
  have hcount : ∀ k, s.IsFloating k → s.handlesOfFloating? (some k) = some (s.handleCount k) := by
    rintro k ⟨n, hn⟩
    -- below the bound a word holds the number itself
    have hlt := Nat.lt_of_le_of_lt (handleCount_le_liveHandles s k) (hbound s List.mem_cons_self)
    refine handlesOfFloating?_eq_some_iff.2 ⟨n, hn, ?_⟩
    rw [h.countsModulo hbound k n hn, UInt32.toNat_ofNat_of_lt' hlt]
  refine ⟨hcount, ?existence, ?related, ?single, ?gone, ?adopted, ?accessors⟩
  case existence =>
    intro k hk
    rw [hk.existsObject_eq, hcount k hk, ← Bool.not_eq_false, isHeld_eq_false_iff, Ne,
      Option.some.injEq]
  case related =>
    intro t source own body r links hbody hlinks
    obtain ⟨rfl, hown⟩ := bodyOf_eq_ok hbody
    refine ⟨links.map s.placeOf, ?_, List.length_map _, ?_⟩
    · rw [related_eq_map hown, hlinks]
      rfl
    · intro p k hp hk
      rw [List.getElem?_map, hp, Option.map_some, hk.placeOf_eq]
  case single =>
    intro t source own body r k hbody hk hfloating
    obtain ⟨rfl, hown⟩ := bodyOf_eq_ok hbody
    rw [single_eq_ok hown, hk, Option.map_some, hfloating.placeOf_eq]
  case gone =>
    intro t ht k hk hgone
    rw [hk.existsObject_eq, isHeld_eq_false_iff] at hgone
    have hs := h.isGone k t (List.mem_cons_of_mem s ht) ⟨hk, hgone⟩
    exact ⟨hs.floating, hs.existsObject⟩
  case adopted =>
    intro t ht c i k hlists
    -- an object that was listed once is past the stage of floating
    have hstage := h.stage_le k t ht
    rw [(h.wellFormed_of_mem ht).listsAt_iff.1 hlists] at hstage
    rw [Option.eq_none_iff_forall_ne_some]
    intro n hn
    obtain ⟨m, hm, -⟩ := handlesOfFloating?_eq_some_iff.1 hn
    rw [hm] at hstage
    exact absurd hstage (Nat.not_succ_le_self 1)
  case accessors =>
    intro t handle relation
    exact ⟨steps_relatedReferences handle relation, steps_singleReference handle relation,
      fun u => ⟨steps_relatedHandles u handle relation, steps_singleHandle u handle relation⟩⟩

/-- Objects that may lead to one another. -/
def linkType : DataType where
  name := "Link"
  payload := .u8
  element := .u8
  toMany := []
  toOne := [⟨"next", "Link"⟩]
  members := []

/-- The stores of a run in which two objects lead to each other and one of them is given up. -/
def cyclicRun : List Store :=
  let first := (newObject linkType (1 : UInt8) .empty).2
  let second := (newObject linkType (2 : UInt8) first).2
  let linked := (setSingle (t := linkType) ⟨⟨⟨0⟩⟩⟩ 0 ⟨1⟩ second).2
  let cyclic := (setSingle (t := linkType) ⟨⟨⟨1⟩⟩⟩ 0 ⟨0⟩ linked).2
  [(drop ⟨1⟩ cyclic).2, cyclic, linked, second, first, .empty]

theorem run_cyclicRun : Run cyclicRun := by
  have hsecond := (Run.start.step (.newObject linkType (1 : UInt8))).step
    (.newObject linkType (2 : UInt8))
  have hcyclic := (hsecond.step (.setSingle (t := linkType) ⟨⟨⟨0⟩⟩⟩ 0 ⟨1⟩)).step
    (.setSingle (t := linkType) ⟨⟨⟨1⟩⟩⟩ 0 ⟨0⟩)
  exact hcyclic.step (.drop ⟨1⟩)

/-- The object that was given up is gone although the other one still leads to it. -/
theorem countsHandles_cyclicRun :
    (cyclicRun.head (by decide)).single linkType (some 0) 0 = .ok (some none) ∧
      (cyclicRun.head (by decide)).handlesOfFloating? (some 0) = some 1 ∧
      CountsHandles cyclicRun.tail (cyclicRun.head (by decide)) := by
  refine ⟨by decide +kernel, by decide +kernel, Run.countsHandles run_cyclicRun ?_⟩
  intro t ht
  have hall : cyclicRun.all (·.liveHandles < 2 ^ 32) = true := by decide +kernel
  exact of_decide_eq_true (List.all_eq_true.1 hall t ht)

end EventModel.Store
