import EventModel.Proofs.Store.Reachable

/-!
# The life of an object

An object is floating at first, then a collection owns it, and in the end it is released. Changes
take an object along this way and never back: gains take objects up, losses release them.

A `Run` remembers every store that it has passed, so that what once happened to an object can be
stated about the store that the run has reached.
-/

namespace EventModel.Store

/-! ## Runs -/

/-- The stores that a run has passed, the latest first. -/
inductive Run : List Store → Prop
  | start : Run [.empty]
  | step {s s' : Store} {past : List Store} (h : Run (s :: past)) (step : Step s s') :
      Run (s' :: s :: past)

variable {s s' : Store} {past : List Store}

theorem Run.reachable (h : Run (s :: past)) : Reachable s := by
  generalize hrun : s :: past = run at h
  induction h generalizing s past with
  | start =>
    cases hrun
    exact .empty
  | step _ step ih =>
    cases hrun
    exact (ih rfl).step step

theorem Run.wellFormed (h : Run (s :: past)) : WellFormed s :=
  h.reachable.wellFormed

/-- What holds at the start of a run and of each next store, if it holds of the stores before,
holds of every run. -/
theorem Run.induct {P : Store → List Store → Prop} (hempty : P .empty [])
    (hstep : ∀ s s' past, Run (s :: past) → Step s s' → P s past → P s' (s :: past))
    (h : Run (s :: past)) : P s past := by
  generalize hrun : s :: past = run at h
  induction h generalizing s past with
  | start =>
    cases hrun
    exact hempty
  | step h step ih =>
    cases hrun
    exact hstep _ _ _ h step (ih rfl)

theorem Run.wellFormed_of_mem (h : Run (s :: past)) : ∀ {t}, t ∈ s :: past → WellFormed t := by
  refine h.induct (P := fun s past => ∀ {t}, t ∈ s :: past → WellFormed t) ?_ ?_
  · intro t ht
    cases List.mem_singleton.1 ht
    exact wellFormed_empty
  · intro s s' past h step ih t ht
    rcases List.mem_cons.1 ht with rfl | hpast
    · exact step.wellFormed h.wellFormed
    · exact ih hpast

/-! ## Where an object belongs -/

/-- Where the object belongs, if it was made. -/
def tracking? (s : Store) (k : ObjectKey) : Option Tracking :=
  (s.objects.get? k).map (·.tracking)

theorem tracking?_of_get? {k : ObjectKey} {o : Object} (ho : s.objects.get? k = some o) :
    s.tracking? k = some o.tracking := by
  rw [tracking?, ho, Option.map_some]

theorem tracking?_eq_some_iff {k : ObjectKey} {tracking : Tracking} :
    s.tracking? k = some tracking ↔ ∃ o, s.objects.get? k = some o ∧ o.tracking = tracking := by
  simp [tracking?]

theorem tracking?_congr {k : ObjectKey} (h : s'.objects.get? k = s.objects.get? k) :
    s'.tracking? k = s.tracking? k := by
  rw [tracking?, tracking?, h]

@[simp]
theorem tracking?_setBody {t : DataType} (k k' : ObjectKey) (body : Body t) :
    (s.setBody k body).tracking? k' = s.tracking? k' := by
  unfold tracking?
  rw [setBody_objects, Arena.get?_modify]
  split
  · rw [Option.map_map]
    refine congrArg (fun f => Option.map f _) (funext fun o => ?_)
    dsimp only [Function.comp_apply]
    split <;> rfl
  · rfl

theorem tracking?_assignAllSingles {t : DataType}
    (columns : Vector (List (Option ObjectKey)) t.toOne.length) (position : Nat)
    (ks : List ObjectKey) (k : ObjectKey) :
    (assignAllSingles columns position ks s).tracking? k = s.tracking? k := by
  refine assignAllSingles_congr columns (·.tracking? k) ?_ position ks s
  intro position head s
  rcases assignAt_eq columns position head s with heq | ⟨body, -, heq⟩
  · rw [heq]
  · rw [heq, tracking?_setBody]

/-! ## The way of an object -/

/-- How one change moves an object along its way. -/
inductive Ages : ChangeKind → Option Tracking → Option Tracking → Prop
  | stays {kind : ChangeKind} (tracking : Option Tracking) : Ages kind tracking tracking
  | isCounted {kind : ChangeKind} (m n : UInt32) :
      Ages kind (some (.floating m)) (some (.floating n))
  | isMade (n : UInt32) : Ages .gain none (some (.floating n))
  | isRebuilt (c : CollectionKey) (i : Nat) : Ages .gain none (some (.owned c i))
  | isAdopted (n : UInt32) (c : CollectionKey) (i : Nat) :
      Ages .gain (some (.floating n)) (some (.owned c i))
  | isReleased (c : CollectionKey) (i : Nat) :
      Ages .loss (some (.owned c i)) (some .released)

/-- How far along its way an object is. -/
def stage : Option Tracking → Nat
  | none => 0
  | some (.floating _) => 1
  | some (.owned _ _) => 2
  | some .released => 3

theorem Ages.trans {kind : ChangeKind} {x y z : Option Tracking} (h : Ages kind x y)
    (h' : Ages kind y z) : Ages kind x z := by
  cases h with
  | stays => exact h'
  | isCounted m n =>
    cases h' with
    | stays => exact .isCounted m n
    | isCounted _ n' => exact .isCounted m n'
    | isAdopted _ c i => exact .isAdopted m c i
  | isMade n =>
    cases h' with
    | stays => exact .isMade n
    | isCounted _ n' => exact .isMade n'
    | isAdopted _ c i => exact .isRebuilt c i
  | isRebuilt c i =>
    cases h' with
    | stays => exact .isRebuilt c i
  | isAdopted n c i =>
    cases h' with
    | stays => exact .isAdopted n c i
  | isReleased c i =>
    cases h' with
    | stays => exact .isReleased c i

theorem Ages.stage_le {kind : ChangeKind} {x y : Option Tracking} (h : Ages kind x y) :
    stage x ≤ stage y := by
  cases h <;> simp [stage]

/-- What was made stays. -/
theorem Ages.isSome {kind : ChangeKind} {x y : Option Tracking} (h : Ages kind x y)
    (hx : x.isSome = true) : y.isSome = true := by
  cases h with
  | stays => exact hx
  | _ => rfl

/-- An object that is released was owned before, and one that is owned was not released. -/
theorem Ages.two_le_stage {kind : ChangeKind} {x : Option Tracking} (h : Ages kind x (some .released)) :
    2 ≤ stage x := by
  cases h <;> simp [stage]

section Ages

variable {kind : ChangeKind}

theorem Quiet.ages (q : Quiet s s') (k : ObjectKey) :
    Ages kind (s.tracking? k) (s'.tracking? k) := by
  rcases ho : s.objects.get? k with _ | o
  · rw [tracking?_congr ((q.get?_eq_none ho).trans ho.symm)]
    exact .stays _
  · rcases q.symm.object ho with ⟨o', ho', hsettled⟩
    rcases htracking : o.tracking with m | ⟨c, i⟩ | _
    · obtain ⟨n, hn⟩ := Object.isFloating_of_settled_eq hsettled.symm htracking
      rw [tracking?_of_get? ho, tracking?_of_get? ho', htracking, hn]
      exact .isCounted m n
    all_goals
      have hsame := q.object_of_not_floating ho (by simp [htracking])
      rw [tracking?_congr (hsame.trans ho.symm)]
      exact .stays _

/-- Every change takes every object along its way. -/
theorem Change.ages (h : WellFormed s) (change : Change s kind s') (k : ObjectKey) :
    Ages kind (s.tracking? k) (s'.tracking? k) := by
  cases change
  case hold target _ => exact (quiet_withHandle s target).ages k
  case unlink r target _ => exact (quiet_withoutTarget s r.key target).ages k
  case forget => exact .stays _
  case newObject t payload =>
    have hinsert : Ages .gain (s.tracking? k) (Store.tracking? { s with
        objects := s.objects.insert ⟨t, .floating 0, .ofPayload payload⟩ } k) := by
      unfold tracking?
      dsimp only
      rw [Arena.get?_insert]
      split
      · rename_i heq
        rw [heq, Arena.get?_eq_none_of_next_le (Nat.le_refl _)]
        exact .isMade 0
      · exact .stays _
    exact hinsert.trans ((quiet_withHandle _ _).ages k)
  case access => exact (quiet_advanceOwner s _).ages k
  case edit target _ _ _ _ _ _ _ | setPlace target _ _ _ _ _ =>
    rw [tracking?_setBody]
    exact (quiet_advanceOwner s target).ages k
  case found col bodies _ _ _ =>
    rcases ho : s.objects.get? k with _ | o
    · rw [show s.tracking? k = none by rw [tracking?, ho, Option.map_none]]
      rcases ho' : (s.withFounded col bodies).objects.get? k with _ | o'
      · rw [tracking?, ho', Option.map_none]
        exact .stays _
      · rw [tracking?_of_get? ho']
        rcases addOwned_get?_eq_some ho' with hold | ⟨i, hi, -, rfl⟩
        · cases ho.symm.trans hold
        · exact .isRebuilt _ _
    · rw [tracking?_congr ((withFounded_get?_of_get? ho).trans ho.symm)]
      exact .stays _
  case adopt c target col o n _ _ _ ho _ hfloating _ =>
    by_cases hk : target = k
    · subst hk
      have ho' := withAdopted_get?_self ho c col.size
      rw [tracking?_of_get? ho, tracking?_of_get? ho', hfloating]
      exact .isAdopted n c col.size
    · rw [tracking?_congr (withAdopted_get?_ne (Ne.symm hk) c col.size)]
      exact .stays _
  case enlist => exact .stays _
  case reset c col subset _ hcol =>
    -- the objects of the collection are released, the others stay
    have hget := s.withReset_get? c col subset k
    split at hget
    · rename_i hmem
      obtain ⟨objects, i, hstorage, hi⟩ := exists_getElem?_of_mem_objects hmem
      obtain ⟨o, ho, -, htracking⟩ := h.listed c col objects i k hcol hstorage hi
      rw [ho, Option.map_some] at hget
      rw [tracking?_of_get? ho, tracking?_of_get? hget, htracking]
      exact .isReleased c i
    · rw [tracking?_congr hget]
      exact .stays _
  case remove => exact .stays _
  case renumber => exact .stays _
  case resolveSubset => exact .stays _
  case resolveOwned c col objects id _ _ many one _ _ _ _ _ _ _ =>
    rw [← tracking?_assignAllSingles (s := s) one 0 objects.toList k]
    exact .stays _
  case keep => exact .stays _
  case unkeep => exact .stays _
  case newFrame => exact .stays _
  case adoptIds => exact .stays _
  case setParameters => exact .stays _
  case putSlot => exact .stays _
  case takeSlot => exact .stays _
  case eraseFrame => exact .stays _

theorem Changes.ages (h : WellFormed s) (changes : Changes kind s s') (k : ObjectKey) :
    Ages kind (s.tracking? k) (s'.tracking? k) := by
  induction changes with
  | refl => exact .stays _
  | tail earlier change ih => exact ih.trans (change.ages (Changes.wellFormed h earlier) k)

theorem Step.ages (h : WellFormed s) (step : Step s s') :
    ∃ kind, ∀ k, Ages kind (s.tracking? k) (s'.tracking? k) := by
  obtain ⟨kind, hchanges⟩ := step.changes h
  exact ⟨kind, hchanges.ages h⟩

end Ages

/-! ## The way of an object in a run -/

/-- In a run no object ever goes back. -/
theorem Run.stage_le (h : Run (s :: past)) (k : ObjectKey) :
    ∀ t ∈ s :: past, stage (t.tracking? k) ≤ stage (s.tracking? k) := by
  refine h.induct (P := fun s past => ∀ t ∈ s :: past,
    stage (t.tracking? k) ≤ stage (s.tracking? k)) ?_ ?_
  · simp
  · intro s s' past h step ih t ht
    obtain ⟨kind, hages⟩ := step.ages h.wellFormed
    rcases List.mem_cons.1 ht with rfl | hpast
    · exact Nat.le_refl _
    · exact Nat.le_trans (ih t hpast) (hages k).stage_le

/-- The collection lists the object at a position. -/
def ListsAt (s : Store) (c : CollectionKey) (i : Nat) (k : ObjectKey) : Prop :=
  ∃ col objects, s.collections.get? c = some col ∧ col.storage = .owned objects ∧
    objects[i]? = some k

/-- A collection lists an object where the object belongs. -/
theorem WellFormed.listsAt_iff (h : WellFormed s) {c : CollectionKey} {i : Nat} {k : ObjectKey} :
    s.ListsAt c i k ↔ s.tracking? k = some (.owned c i) := by
  rw [tracking?_eq_some_iff]
  constructor
  · rintro ⟨col, objects, hcol, hstorage, hi⟩
    obtain ⟨o, ho, -, htracking⟩ := h.listed c col objects i k hcol hstorage hi
    exact ⟨o, ho, htracking⟩
  · rintro ⟨o, ho, htracking⟩
    exact h.owner k o c i ho htracking

/-- An object that is no longer floating was listed by some collection at some time. -/
theorem Run.exists_listsAt (h : Run (s :: past)) (k : ObjectKey) :
    2 ≤ stage (s.tracking? k) → ∃ t ∈ s :: past, ∃ c i, t.ListsAt c i k := by
  refine h.induct (P := fun s past => 2 ≤ stage (s.tracking? k) →
    ∃ t ∈ s :: past, ∃ c i, t.ListsAt c i k) ?_ ?_
  · simp [tracking?, Store.empty, Arena.get?, stage]
  · intro s s' past h step ih hstage
    rcases htracking : s'.tracking? k with _ | n | ⟨c, i⟩ | _
    · rw [htracking] at hstage
      exact absurd hstage (by decide)
    · rw [htracking] at hstage
      exact absurd hstage (Nat.not_succ_le_self 1)
    · have hwell := step.wellFormed h.wellFormed
      exact ⟨s', List.mem_cons_self, c, i, hwell.listsAt_iff.2 htracking⟩
    · obtain ⟨kind, hages⟩ := step.ages h.wellFormed
      have hage := hages k
      rw [htracking] at hage
      obtain ⟨t, ht, hlists⟩ := ih hage.two_le_stage
      exact ⟨t, List.mem_cons_of_mem s' ht, hlists⟩

end EventModel.Store
