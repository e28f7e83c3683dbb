import EventModel.Proofs.Store.Reachable
import EventModel.Proofs.Store.Reading

/-!
# Handles that operations make for a while

An accessor makes a handle for each object that it returns. If the handles are typed it first makes
references, and gives them back in the end; if it fails it gives back what it has made. Each of these
handles is made and given back by a step of its own, so accessors are nothing but short runs.
-/

namespace EventModel.Store

variable {s s' : Store} {t : DataType}

/-- Steps one after the other. -/
abbrev Steps : Store → Store → Prop :=
  Relation.ReflTransGen Step

theorem existsObject_withHandle (target : Option ObjectKey) {k : ObjectKey}
    (h : s.existsObject k = true) : (s.withHandle target).existsObject k = true := by
  have hheld : s.isHeld k = true → (s.withHandle target).isHeld k = true := by
    simp only [isHeld, Arena.any_eq_true_iff, withHandle_handles]
    rintro ⟨key, x, hget, hx⟩
    exact ⟨key, x, Arena.get?_insert_of_get? hget, hx⟩
  have hsubset : (s.withHandle target).isInSubset k = s.isInSubset k := by
    unfold isInSubset
    rw [withHandle_collections]
  obtain ⟨o, ho⟩ := exists_of_existsObject h
  rcases htracking : o.tracking with n | ⟨c, i⟩ | _
  · have hold : s.isHeld k = true := by simpa [existsObject, ho, htracking] using h
    obtain ⟨o', ho', -⟩ := (quiet_withHandle s target).retains k o ho
    exact existsObject_of_isHeld ho' (hheld hold)
  · have ho' := (quiet_withHandle s target).object_of_not_floating ho (by simp [htracking])
    simp [existsObject, ho', htracking]
  · have ho' := (quiet_withHandle s target).object_of_not_floating ho (by simp [htracking])
    have hold : s.isHeld k = true ∨ s.isInSubset k = true := by
      simpa [existsObject, ho, htracking] using h
    rcases hold with hold | hold
    · exact existsObject_of_isHeld ho' (hheld hold)
    · simp [existsObject, ho', htracking, hsubset, hold]

theorem steps_refer {place : Option ObjectKey} (h : ∀ k, place = some k → s.existsObject k = true) :
    Steps s (refer place s).2 := by
  cases place with
  | none => exact .single .emptyReference
  | some k => exact .single (.refer k (h k rfl))

theorem steps_referAll {places : List (Option ObjectKey)}
    (h : ∀ k, some k ∈ places → s.existsObject k = true) : Steps s (referAll places s).2 := by
  induction places generalizing s with
  | nil => exact .refl
  | cons place rest ih =>
    rw [referAll]
    refine bind_induct (steps_refer fun k hk => h k (hk ▸ List.mem_cons_self)) ?_
    intro r s' hrun hs'
    have hs : s' = s.withHandle place := by
      rw [refer_apply] at hrun
      exact (Prod.mk.inj hrun).2.symm
    -- a handle that is made lets no object go
    have hrest : ∀ k, some k ∈ rest → s'.existsObject k = true := by
      intro k hk
      rw [hs]
      exact existsObject_withHandle place (h k (List.mem_cons_of_mem place hk))
    exact bind_induct (hs'.trans (ih hrest)) fun _ _ _ hlast => hlast

theorem steps_dropAll (references : List Reference) : Steps s (dropAll references s).2 := by
  induction references generalizing s with
  | nil => exact .refl
  | cons r rest ih =>
    rw [dropAll]
    exact bind_induct (.single (.drop r)) fun _ s' _ hs' => hs'.trans ih

variable {α : Type}

theorem steps_thenDrop {action : Action α} (h : Steps s (action s).2)
    (temporaries : List Reference) : Steps s (thenDrop temporaries action s).2 :=
  h.trans (steps_dropAll temporaries)

theorem steps_dropOnFailure {action : Action α} (h : Steps s (action s).2) (r : Reference) :
    Steps s (dropOnFailure r action s).2 := by
  unfold dropOnFailure
  rcases hrun : action s with ⟨e | x, s'⟩
  · rw [hrun] at h
    exact h.tail (.drop r)
  · rw [hrun] at h
    exact h

theorem steps_downcastAll (u : DataType) (references : List Reference) :
    Steps s (downcastAll u references s).2 := by
  induction references generalizing s with
  | nil => exact .refl
  | cons r rest ih =>
    rw [downcastAll]
    refine bind_induct (.single (.downcast u r)) fun handle s' _ hs' => hs'.trans ?_
    exact steps_dropOnFailure (bind_induct ih fun _ _ _ hlast => hlast) handle.toReference

theorem steps_relatedReferences (handle : Handle t) (relation : Nat) :
    Steps s (relatedReferences handle relation s).2 := by
  rw [relatedReferences, get_bind_apply]
  exact ask_bind_induct .refl fun places hplaces =>
    steps_referAll (existsObject_of_related hplaces)

theorem steps_relatedHandles (u : DataType) (handle : Handle t) (relation : Nat) :
    Steps s (relatedHandles u handle relation s).2 := by
  rw [relatedHandles]
  refine bind_induct (steps_relatedReferences handle relation) fun references s' _ hs' => ?_
  exact hs'.trans (steps_thenDrop (steps_downcastAll u references) references)

theorem steps_singleReference (handle : Handle t) (relation : Nat) :
    Steps s (singleReference handle relation s).2 := by
  rw [singleReference, get_bind_apply]
  refine ask_bind_induct .refl fun place hplace => ?_
  rcases place with _ | place
  · exact .refl
  · refine bind_induct (steps_refer ?_) fun _ _ _ hs' => hs'
    rintro k rfl
    exact existsObject_of_single hplace

theorem steps_singleHandle (u : DataType) (handle : Handle t) (relation : Nat) :
    Steps s (singleHandle u handle relation s).2 := by
  rw [singleHandle]
  refine bind_induct (steps_singleReference handle relation) fun found s' _ hs' => ?_
  rcases found with _ | r
  · exact hs'
  · refine hs'.trans (steps_thenDrop ?_ [r])
    rw [map_apply]
    have hdowncast : Steps s' (downcast u r s').2 := .single (.downcast u r)
    rcases hrun : downcast u r s' with ⟨e | handle, s₂⟩
    · rw [hrun] at hdowncast
      exact hdowncast
    · rw [hrun] at hdowncast
      exact hdowncast

end EventModel.Store
