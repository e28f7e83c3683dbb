import EventModel.Proofs.Store.Rejection
import EventModel.Proofs.Store.Touched

/-!
# How long prepared buffers are current

Buffers that were prepared count exactly the collections that they depend on. They are kept, and
returned without being computed again, through every run that touches none of these collections, and
from the first operation that touches one of them on they are never current again
(`isPrepared_until_touched`).
-/

namespace EventModel.Store

variable {s s' s₀ s₁ : Store} {c d : CollectionKey} {col : Collection} {p : Prepared}
  {touched prepared : Set CollectionKey}

instance (s : Store) (c d : CollectionKey) : Decidable (s.DependsOn c d) :=
  decidable_of_iff ((s.collections.get? c).any (fun col => (s.dependencies c col).contains d) = true)
    <| by simp [DependsOn, Option.any_eq_true]

/-! ## What current buffers count -/

/-- Current buffers count only collections that they depend on. -/
def CountsDependencies (s : Store) : Prop :=
  ∀ c col p, s.collections.get? c = some col → col.prepared = some p → s.isCurrent p = true →
    ∀ stamp ∈ p.stamps, stamp.1 ∈ s.dependencies c col

theorem CountsDependencies.change {kind : ChangeKind} (h : WellFormed s) (hkeeps : s.KeepsBuffers)
    (hcounts : s.CountsDependencies) (change : Change s kind s') : s'.CountsDependencies := by
  intro c col' p hcol' hp hcurrent stamp hstamp
  have hadvances := change.advances h
  -- the buffers were counted right before the change, or they are older
  obtain ⟨col, hcol, kept, hbefore⟩ : ∃ col, s.collections.get? c = some col ∧ Kept s c col p ∧
      (s.isCurrent p = true → stamp.1 ∈ s.dependencies c col) := by
    obtain ⟨col, hcol, hold | ⟨hstamps, hflat⟩⟩ := hadvances.prepared c col' p hcol' hp
    · exact ⟨col, hcol, hkeeps c col p hcol hold, fun hcurrent =>
        hcounts c col p hcol hold hcurrent stamp hstamp⟩
    · refine ⟨col, hcol, .fresh h hcol hstamps hflat, fun _ => ?_⟩
      rw [hstamps] at hstamp
      exact (mem_stamps_iff.1 hstamp).1
  obtain ⟨hcurrent, hsteady⟩ := kept.steady_of_isCurrent hadvances hcurrent
  obtain ⟨-, hdependencies⟩ := flattenCollection_congr h hcol (kept.sound hcurrent).1 hsteady
  obtain ⟨same, same', hsame, hsame', heq⟩ :=
    (hsteady c (mem_dependencies_iff.2 (.inl rfl))).collection
  cases hcol.symm.trans hsame
  cases hcol'.symm.trans hsame'
  have hmem : stamp.1 ∈ s'.dependencies c col := by
    rw [hdependencies]
    exact hbefore hcurrent
  rw [heq]
  exact hmem

theorem Reachable.countsDependencies (h : Reachable s) : s.CountsDependencies := by
  have hboth : s.KeepsBuffers ∧ s.CountsDependencies := by
    refine h.induct (P := fun s => s.KeepsBuffers ∧ s.CountsDependencies) ⟨?_, ?_⟩
      fun _ s s' hwell hs change =>
        ⟨KeepsBuffers.change hwell hs.1 change, hs.2.change hwell hs.1 change⟩
    · intro c col p hcol
      simp [Store.empty, Arena.get?] at hcol
    · intro c col p hcol
      simp [Store.empty, Arena.get?] at hcol
  exact hboth.2

/-- The collection has these prepared buffers, and they are current. -/
def HasCurrent (s : Store) (c : CollectionKey) (p : Prepared) : Prop :=
  ∃ col, s.collections.get? c = some col ∧ col.prepared = some p ∧ s.isCurrent p = true

namespace HasCurrent

theorem isPrepared (h : s.HasCurrent c p) : s.isPrepared c = true := by
  obtain ⟨col, hcol, hp, hcurrent⟩ := h
  simp only [Store.isPrepared, hcol, isPreparedCollection, hp, hcurrent]

/-- The buffers are returned as they are. -/
theorem prepare_eq (h : s.HasCurrent c p) : prepare c s = (.ok (p.serial, p.buffers), s) := by
  obtain ⟨col, hcol, hp, hcurrent⟩ := h
  simp only [prepare, collection_eq_ok_iff.2 hcol, hp, Option.filter_some, hcurrent, if_true]

/-- The buffers count a collection if and only if they depend on it. -/
theorem dependsOn_iff (hs : Reachable s) (h : s.HasCurrent c p) :
    s.DependsOn c d ↔ ∃ generation, (d, generation) ∈ p.stamps := by
  obtain ⟨col, hcol, hp, hcurrent⟩ := h
  constructor
  · rintro ⟨col', hcol', hd⟩
    cases hcol.symm.trans hcol'
    exact ((hs.keepsBuffers c col p hcol hp).sound hcurrent).2 d hd
  · rintro ⟨generation, hmem⟩
    exact ⟨col, hcol, hs.countsDependencies c col p hcol hp hcurrent _ hmem⟩

end HasCurrent

theorem isPrepared_eq_true (h : s.isPrepared c = true) : ∃ p, s.HasCurrent c p := by
  unfold isPrepared at h
  rcases hcol : s.collections.get? c with _ | col
  · rw [hcol] at h
    cases h
  · rw [hcol] at h
    dsimp only [isPreparedCollection] at h
    rcases hp : col.prepared with _ | p
    · rw [hp] at h
      cases h
    · rw [hp] at h
      exact ⟨p, col, hcol, hp, h⟩

/-- What `prepare` has returned is current. -/
theorem hasCurrent_of_prepare {serial : Nat} {buffers : Buffers}
    (hrun : prepare c s₀ = (.ok (serial, buffers), s)) :
    ∃ p, s.HasCurrent c p ∧ p.serial = serial ∧ p.buffers = buffers := by
  have hprepares := prepares_prepare c s₀
  rw [hrun] at hprepares
  unfold prepare at hrun
  rcases hcollection : s₀.collection c with e | col
  · rw [hcollection] at hrun
    cases hrun
  have hcol := collection_eq_ok_iff.1 hcollection
  rw [hcollection] at hrun
  dsimp only at hrun
  rcases hfilter : col.prepared.filter s₀.isCurrent with _ | p
  · rw [hfilter] at hrun
    dsimp only at hrun
    rcases hflat : s₀.flattenCollection col with e | buffers
    · rw [hflat] at hrun
      cases hrun
    · rw [hflat] at hrun
      cases hrun
      refine ⟨_, ⟨_, Arena.get?_modify_self hcol _, rfl, ?_⟩, rfl, rfl⟩
      rw [hprepares.isCurrent]
      exact isCurrent_iff.2 fun stamp hstamp => (mem_stamps_iff.1 hstamp).2
  · rw [hfilter] at hrun
    cases hrun
    obtain ⟨hp, hcurrent⟩ := Option.filter_eq_some_iff.1 hfilter
    exact ⟨p, ⟨col, hcol, hp, hcurrent⟩, rfl, rfl⟩

/-! ## Runs that touch nothing that the buffers depend on -/

/-- One operation that touches no collection of this kind. -/
def SparesAll (p : CollectionKey → Prop) (s s' : Store) : Prop :=
  ∃ touched prepared, Act s s' touched prepared ∧ ∀ d, p d → d ∉ touched

theorem Touches.generation?_eq (h : Touches s s' touched) {generation : Nat}
    (hd : d ∉ touched) (hgeneration : s.generation? d = some generation) :
    s'.generation? d = some generation := by
  obtain ⟨col, hcol, -⟩ := generation?_eq_some_iff.1 hgeneration
  rw [generation?, h.same d (Arena.lt_next_of_get? hcol) hd]
  exact hgeneration

theorem Act.hasCurrent (act : Act s s' touched prepared) (h : s.HasCurrent c p)
    (hc : c ∉ touched) (hstamps : ∀ stamp ∈ p.stamps, stamp.1 ∉ touched) : s'.HasCurrent c p := by
  obtain ⟨col, hcol, hp, hcurrent⟩ := h
  rcases act.touches_or_prepares with ⟨-, htouches⟩ | ⟨-, hprepares⟩
  · refine ⟨col, ?_, hp, isCurrent_iff.2 fun stamp hstamp => ?_⟩
    · rw [htouches.same c (Arena.lt_next_of_get? hcol) hc, hcol]
    · exact htouches.generation?_eq (hstamps stamp hstamp) (isCurrent_iff.1 hcurrent stamp hstamp)
  · exact ⟨col, hprepares.kept c col p hcol hp hcurrent, hp, (hprepares.isCurrent p).trans hcurrent⟩

/-- Current buffers stay current through every run that spares what they depend on. -/
theorem HasCurrent.run (hs : Reachable s) (h : s.HasCurrent c p)
    (run : Relation.ReflTransGen (SparesAll (s.DependsOn c)) s s') : s'.HasCurrent c p := by
  have hself : s.DependsOn c c := by
    obtain ⟨col, hcol, -⟩ := h
    exact ⟨col, hcol, mem_dependencies_iff.2 (.inl rfl)⟩
  induction run with
  | refl => exact h
  | tail _ act ih =>
    obtain ⟨touched, prepared, act, hspares⟩ := act
    refine act.hasCurrent ih (hspares c hself) fun stamp hstamp => ?_
    exact hspares stamp.1 ((h.dependsOn_iff hs).2 ⟨stamp.2, hstamp⟩)

/-! ## Runs that do not prepare the collection again -/

/-- One operation that does not succeed in preparing the collection. -/
def WithoutPreparing (c : CollectionKey) (s s' : Store) : Prop :=
  ∃ touched prepared, Act s s' touched prepared ∧ c ∉ prepared

section Ages

variable (act : Act s s' touched prepared)
include act

theorem Act.next_le : s.collections.next ≤ s'.collections.next := by
  rcases act.touches_or_prepares with ⟨-, htouches⟩ | ⟨-, hprepares⟩
  · exact htouches.next
  · exact Nat.le_of_eq hprepares.next.symm

/-- Counts never go back, and the key of a collection that is gone is not used again. -/
theorem Act.generation_le {col' : Collection} (hlt : d < s.collections.next)
    (hcol' : s'.collections.get? d = some col') :
    ∃ col, s.collections.get? d = some col ∧ col.generation ≤ col'.generation := by
  rcases act.touches_or_prepares with ⟨-, htouches⟩ | ⟨-, hprepares⟩
  · by_cases hd : d ∈ touched
    · obtain ⟨col, hcol, hlater, -⟩ := htouches.later d hlt hd col' hcol'
      exact ⟨col, hcol, Nat.le_of_lt hlater⟩
    · rw [htouches.same d hlt hd] at hcol'
      exact ⟨col', hcol', Nat.le_refl _⟩
  · have hgeneration := hprepares.generation d
    rw [generation?_eq_some_iff.2 ⟨col', hcol', rfl⟩] at hgeneration
    obtain ⟨col, hcol, heq⟩ := generation?_eq_some_iff.1 hgeneration.symm
    exact ⟨col, hcol, Nat.le_of_eq heq⟩

/-- Buffers of a collection that is not prepared were there before. -/
theorem Act.prepared_before {col' : Collection} (hlt : c < s.collections.next) (hc : c ∉ prepared)
    (hcol' : s'.collections.get? c = some col') (hp : col'.prepared = some p) :
    ∃ col, s.collections.get? c = some col ∧ col.prepared = some p := by
  rcases act.touches_or_prepares with ⟨-, htouches⟩ | ⟨-, hprepares⟩
  · by_cases hd : c ∈ touched
    · obtain ⟨col, hcol, -, hnone | hsame⟩ := htouches.later c hlt hd col' hcol'
      · rw [hnone] at hp
        cases hp
      · exact ⟨col, hcol, hsame.symm.trans hp⟩
    · rw [htouches.same c hlt hd] at hcol'
      exact ⟨col', hcol', hp⟩
  · exact hprepares.old c hc col' p hcol' hp

end Ages

/-- The collection has no other buffers than these, and what they count is not ahead. -/
structure KeepsOnly (s : Store) (c : CollectionKey) (p : Prepared) : Prop where
  lt : c < s.collections.next
  only : ∀ col q, s.collections.get? c = some col → col.prepared = some q → q = p
  bound : ∀ stamp ∈ p.stamps, stamp.1 < s.collections.next ∧
    ∀ col, s.collections.get? stamp.1 = some col → stamp.2 ≤ col.generation

theorem HasCurrent.keepsOnly (h : s.HasCurrent c p) : s.KeepsOnly c p := by
  obtain ⟨col, hcol, hp, hcurrent⟩ := h
  refine ⟨Arena.lt_next_of_get? hcol, fun col' q hcol' hq => ?_, fun stamp hstamp => ?_⟩
  · cases hcol.symm.trans hcol'
    exact Option.some.inj (hq.symm.trans hp)
  · obtain ⟨other, hother, heq⟩ := generation?_eq_some_iff.1 (isCurrent_iff.1 hcurrent stamp hstamp)
    refine ⟨Arena.lt_next_of_get? hother, fun col' hcol' => ?_⟩
    cases hother.symm.trans hcol'
    exact Nat.le_of_eq heq.symm

theorem KeepsOnly.act (h : s.KeepsOnly c p) (act : Act s s' touched prepared) (hc : c ∉ prepared) :
    s'.KeepsOnly c p where
  lt := Nat.lt_of_lt_of_le h.lt act.next_le
  only col' q hcol' hq := by
    obtain ⟨col, hcol, hq⟩ := act.prepared_before h.lt hc hcol' hq
    exact h.only col q hcol hq
  bound stamp hstamp := by
    obtain ⟨hlt, hbound⟩ := h.bound stamp hstamp
    refine ⟨Nat.lt_of_lt_of_le hlt act.next_le, fun col' hcol' => ?_⟩
    obtain ⟨col, hcol, hle⟩ := act.generation_le hlt hcol'
    exact Nat.le_trans (hbound col hcol) hle

/-- A collection that the buffers count is gone, or has counted changes since. -/
def IsPast (s : Store) (p : Prepared) : Prop :=
  ∃ stamp ∈ p.stamps, stamp.1 < s.collections.next ∧
    ∀ col, s.collections.get? stamp.1 = some col → stamp.2 < col.generation

theorem IsPast.act (h : s.IsPast p) (act : Act s s' touched prepared) : s'.IsPast p := by
  obtain ⟨stamp, hstamp, hlt, hpast⟩ := h
  refine ⟨stamp, hstamp, Nat.lt_of_lt_of_le hlt act.next_le, fun col' hcol' => ?_⟩
  obtain ⟨col, hcol, hle⟩ := act.generation_le hlt hcol'
  exact Nat.lt_of_lt_of_le (hpast col hcol) hle

theorem IsPast.not_isCurrent (h : s.IsPast p) : s.isCurrent p = false := by
  obtain ⟨stamp, hstamp, -, hpast⟩ := h
  rw [Bool.eq_false_iff]
  intro hcurrent
  obtain ⟨col, hcol, heq⟩ := generation?_eq_some_iff.1 (isCurrent_iff.1 hcurrent stamp hstamp)
  exact Nat.lt_irrefl _ (heq ▸ hpast col hcol)

/-- No operation both touches a collection and prepares one. -/
theorem Act.notMem_prepared (act : Act s s' touched prepared) (hd : d ∈ touched)
    (c : CollectionKey) : c ∉ prepared := by
  rcases act.touches_or_prepares with ⟨rfl, -⟩ | ⟨rfl, -⟩
  · exact Set.notMem_empty c
  · exact absurd hd (Set.notMem_empty d)

/-- A change of a collection that they count makes buffers a thing of the past. -/
theorem KeepsOnly.isPast (h : s.KeepsOnly c p) (act : Act s s' touched prepared)
    {generation : Nat} (hstamp : (d, generation) ∈ p.stamps) (hd : d ∈ touched) : s'.IsPast p := by
  obtain ⟨hlt, hbound⟩ := h.bound _ hstamp
  rcases act.touches_or_prepares with ⟨-, htouches⟩ | ⟨rfl, -⟩
  · refine ⟨_, hstamp, Nat.lt_of_lt_of_le hlt htouches.next, fun col' hcol' => ?_⟩
    obtain ⟨col, hcol, hlater, -⟩ := htouches.later d hlt hd col' hcol'
    exact Nat.lt_of_le_of_lt (hbound col hcol) hlater
  · exact absurd hd (Set.notMem_empty d)

theorem KeepsOnly.not_isPrepared (h : s.KeepsOnly c p) (hpast : s.IsPast p) :
    s.isPrepared c = false := by
  rw [Bool.eq_false_iff]
  intro hprepared
  obtain ⟨q, col, hcol, hq, hcurrent⟩ := isPrepared_eq_true hprepared
  rw [h.only col q hcol hq, hpast.not_isCurrent] at hcurrent
  cases hcurrent

/-- What no preparation replaces stays there or is thrown away. -/
theorem KeepsOnly.run (h : s.KeepsOnly c p)
    (run : Relation.ReflTransGen (WithoutPreparing c) s s') : s'.KeepsOnly c p := by
  induction run with
  | refl => exact h
  | tail _ act ih =>
    obtain ⟨touched, prepared, act, hc⟩ := act
    exact ih.act act hc

theorem IsPast.run (h : s.IsPast p) (run : Relation.ReflTransGen (WithoutPreparing c) s s') :
    s'.IsPast p := by
  induction run with
  | refl => exact h
  | tail _ act ih =>
    obtain ⟨touched, prepared, act, -⟩ := act
    exact ih.act act

/-- Right after a collection was prepared its buffers are current, and they are returned as they are
through every run that touches nothing that they depend on. Once an operation has touched something
that they depend on, the collection is not prepared until it is prepared again. -/
theorem isPrepared_until_touched (h : Reachable s₀) {serial : Nat} {buffers : Buffers}
    (hprepare : prepare c s₀ = (.ok (serial, buffers), s)) :
    (∀ s', Relation.ReflTransGen (SparesAll (s.DependsOn c)) s s' →
      s'.isPrepared c = true ∧ prepare c s' = (.ok (serial, buffers), s')) ∧
    ∀ s₁ s₂ s' touched prepared d, Relation.ReflTransGen (WithoutPreparing c) s s₁ →
      Act s₁ s₂ touched prepared → s.DependsOn c d → d ∈ touched →
      Relation.ReflTransGen (WithoutPreparing c) s₂ s' → s'.isPrepared c = false := by
  have hs : Reachable s := by
    have hstep := h.step (.prepare c)
    rwa [hprepare] at hstep
  obtain ⟨p, hcurrent, rfl, rfl⟩ := hasCurrent_of_prepare hprepare
  refine ⟨fun s' run => ?_, ?_⟩
  · have hrun := hcurrent.run hs run
    exact ⟨hrun.isPrepared, hrun.prepare_eq⟩
  · intro s₁ s₂ s' touched prepared d before act hdepends hd after
    have hc := act.notMem_prepared hd c
    obtain ⟨generation, hstamp⟩ := (hcurrent.dependsOn_iff hs).1 hdepends
    have hbefore := hcurrent.keepsOnly.run before
    have hpast : s₂.IsPast p := hbefore.isPast act hstamp hd
    exact ((hbefore.act act hc).run after).not_isPrepared (hpast.run after)

/-- A collection that waits for resolution, and another one with an object that a to-one relation of
the first leads to. Handle 0 is for that object, handle 1 for the one that leads to it. -/
def spanningStore : Store :=
  let numbered := (setCollectionId 1 ⟨8⟩ (newCollection meshType false {} meshStore).2).2
  let held := (getMutable meshType 0 0 (create meshType 1 (9 : UInt8) numbered).2).2
  (setSingle (t := meshType) ⟨⟨⟨1⟩⟩⟩ 0 ⟨0⟩ held).2

theorem reachable_spanningStore : Reachable spanningStore := by
  have hfounded := reachable_meshStore.step (.newCollection meshType false {})
  have hnumbered := hfounded.step (.setCollectionId 1 ⟨8⟩ (by decide +kernel))
  have hcreated := hnumbered.step (.create meshType 1 (9 : UInt8) (by decide +kernel))
  exact (hcreated.step (.getMutable meshType 0 0)).step (.setSingle (t := meshType) ⟨⟨⟨1⟩⟩⟩ 0 ⟨0⟩)

/-- The store with prepared buffers of the first collection, which depend on both. -/
def spanningPrepared : Store :=
  (prepare 0 spanningStore).2

/-- The prepared store with an object in a third collection. -/
def spanningFilled : Store :=
  (create byteType 2 (5 : UInt8) (newCollection byteType false {} spanningPrepared).2).2

/-- The prepared store after an edit in the first collection, which fails. -/
def spanningDenied : Store :=
  (clearRelated (t := meshType) ⟨⟨⟨1⟩⟩⟩ 0 spanningPrepared).2

/-- An object in a third collection changes nothing for the buffers. They are no longer current after
an edit in the second one, nor after one in the first that fails and leaves all flat forms as they
were. -/
theorem isPrepared_until_touched_spanningStore :
    (prepare 0 spanningStore).1.isOk = true ∧
      spanningFilled.isPrepared 0 = true ∧
      prepare 0 spanningFilled = ((prepare 0 spanningStore).1, spanningFilled) ∧
      (updatePayload (t := meshType) ⟨⟨⟨0⟩⟩⟩ (fun _ => (1 : UInt8)) spanningPrepared).2.isPrepared 0 =
        false ∧
      (clearRelated (t := meshType) ⟨⟨⟨1⟩⟩⟩ 0 spanningPrepared).1 =
        .error (.unresolvedReferences "Mesh" ⟨7⟩) ∧
      spanningDenied.flatten 0 = spanningPrepared.flatten 0 ∧
      spanningDenied.flatten 1 = spanningPrepared.flatten 1 ∧
      spanningDenied.isPrepared 0 = false := by
  have hok : (prepare 0 spanningStore).1.isOk = true := by decide +kernel
  obtain ⟨⟨serial, buffers⟩, hresult⟩ : ∃ x, (prepare 0 spanningStore).1 = .ok x := by
    rcases hresult : (prepare 0 spanningStore).1 with e | x
    · rw [hresult] at hok
      cases hok
    · exact ⟨x, rfl⟩
  have hprepare : prepare 0 spanningStore = (.ok (serial, buffers), spanningPrepared) := by
    rw [← hresult, spanningPrepared, Prod.eta]
  obtain ⟨hkept, hlost⟩ := isPrepared_until_touched reachable_spanningStore hprepare
  have hfilled := hkept spanningFilled
    (.tail (.single ⟨_, _, .newCollection byteType false {}, fun d _ => Set.notMem_empty d⟩)
      ⟨_, _, .create byteType 2 (5 : UInt8), by
        rintro d hd ⟨rfl, -⟩
        exact absurd hd (by decide +kernel)⟩)
  refine ⟨hok, hfilled.1, hresult ▸ hfilled.2, ?_, by decide +kernel, by decide +kernel,
    by decide +kernel, ?_⟩
  · exact hlost _ _ _ _ _ 1 .refl (.updatePayload (t := meshType) ⟨⟨⟨0⟩⟩⟩ fun _ => (1 : UInt8))
      (by decide +kernel) ⟨by decide +kernel, (), by decide +kernel⟩ .refl
  · exact hlost _ _ _ _ _ 0 .refl (.clearRelated (t := meshType) ⟨⟨⟨1⟩⟩⟩ 0) (by decide +kernel)
      ⟨by decide +kernel, .inr ⟨by decide, by decide +kernel⟩⟩ .refl

end EventModel.Store
