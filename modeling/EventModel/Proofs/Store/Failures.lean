import EventModel.Proofs.Store.Operations

/-!
# Why operations fail

An operation fails only as the parts that it is put together from. The errors of the accessors of an
object follow. An object that is not there or was released is unavailable,
an index may be out of range, a handle may ask for another type than that of its object, and a window
may not fit into its column.
-/

namespace EventModel

variable {e : Error}

theorem checkIndex_eq_error {index m : Nat} (h : checkIndex index m = .error e) :
    e = .outOfRange index m := by
  unfold checkIndex at h
  split at h
  · cases h
  · exact (Except.error.inj h).symm

theorem Window.slice_eq_error {α : Type} {w : Window} {column : List α}
    (h : w.slice column = .error e) : ∃ reason, e = .corruptBuffer reason := by
  rcases bind_eq_error_iff.1 h with h | ⟨bounds, -, h⟩
  · unfold Window.checked at h
    dsimp only at h
    split at h
    · exact ⟨_, (Except.error.inj h).symm⟩
    · cases h
  · cases h

namespace Store

variable {s : Store} {t : DataType} {k : ObjectKey} {target : Option ObjectKey}

/-! ## Operations put together -/

section Sequencing

variable {α β : Type} {P : Error → Prop}

theorem ask_bind_failsOnly {x : Except Error α} {f : α → Action β} (h : FailsOnly P x)
    (hf : ∀ a, x = .ok a → FailsOnly P (f a s).1) : FailsOnly P ((liftM x >>= f) s).1 := by
  rw [bind_apply, ask_apply]
  rcases hx : x with e | a
  · exact .of_error (h e hx)
  · exact hf a hx

theorem bind_failsOnly {a : Action α} {f : α → Action β} (h : FailsOnly P (a s).1)
    (hf : ∀ x s', a s = (.ok x, s') → FailsOnly P (f x s').1) : FailsOnly P ((a >>= f) s).1 := by
  rw [bind_apply]
  rcases hrun : a s with ⟨e | x, s'⟩
  · rw [hrun] at h
    exact .of_error (h e rfl)
  · exact hf x s' hrun

/-- A run over a list fails only as its steps do, as long as these keep what they need. -/
theorem forEach_failsOnly {I : Store → Prop} {f : α → Action Unit} {xs : List α}
    (hstep : ∀ x ∈ xs, ∀ s, I s → FailsOnly P (f x s).1 ∧ ∀ s', f x s = (.ok (), s') → I s')
    (hs : I s) : FailsOnly P (forEach f xs s).1 := by
  induction xs generalizing s with
  | nil => exact .of_ok ()
  | cons x rest ih =>
    rcases hstep x List.mem_cons_self s hs with ⟨hfirst, hkept⟩
    refine bind_failsOnly hfirst fun _ s' hrun => ?_
    exact ih (fun y hy => hstep y (List.mem_cons_of_mem x hy)) (hkept s' hrun)

end Sequencing

/-! ## Accessors -/

theorem object_eq_error (h : s.object k = .error e) : e = .unavailable := by
  unfold object at h
  split at h
  · cases h
  · exact (Except.error.inj h).symm

theorem collection_eq_error {c : CollectionKey} (h : s.collection c = .error e) :
    e = .unavailable := by
  unfold collection at h
  split at h
  · cases h
  · exact (Except.error.inj h).symm

theorem available_eq_error (h : s.available target = .error e) : e = .unavailable := by
  unfold available at h
  split at h
  · split at h
    · exact (Except.error.inj h).symm
    · cases h
  · exact (Except.error.inj h).symm

/-- A body is not found only if its object is unavailable or has another type. -/
theorem body_eq_error (h : s.body t k = .error e) :
    e = .unavailable ∨ ∃ o, s.objects.get? k = some o ∧ o.type ≠ t ∧
      e = .typeMismatch t.name o.type.name := by
  rcases bind_eq_error_iff.1 h with hobject | ⟨o, hobject, h⟩
  · exact .inl (object_eq_error hobject)
  · rcases hreleased : o.isReleased
    · rw [hreleased, Object.bodyAs] at h
      by_cases htype : o.type = t
      · rw [dif_pos htype] at h
        cases h
      · rw [dif_neg htype] at h
        exact .inr ⟨o, object_eq_ok_iff.1 hobject, htype, (Except.error.inj h).symm⟩
    · rw [hreleased] at h
      exact .inl (Except.error.inj h).symm

theorem bodyOf_eq_error (h : s.bodyOf t target = .error e) :
    e = .unavailable ∨ ∃ k o, target = some k ∧ s.objects.get? k = some o ∧ o.type ≠ t ∧
      e = .typeMismatch t.name o.type.name := by
  rcases target with _ | k
  · exact .inl (Except.error.inj h).symm
  · rcases bind_eq_error_iff.1 h with hbody | ⟨body, -, h⟩
    · rcases body_eq_error hbody with hunavailable | ⟨o, ho⟩
      · exact .inl hunavailable
      · exact .inr ⟨k, o, rfl, ho⟩
    · cases h

theorem checkTarget_eq_error {expected : String} (h : s.checkTarget target expected = .error e) :
    e = .unavailable ∨ ∃ found, e = .typeMismatch expected found := by
  rcases target with _ | k
  · exact .inl (Except.error.inj h).symm
  · rcases bind_eq_error_iff.1 h with hobject | ⟨o, -, h⟩
    · exact .inl (available_eq_error hobject)
    · split at h
      · cases h
      · exact .inr ⟨_, (Except.error.inj h).symm⟩

theorem originOf_eq_error (h : s.originOf t k = .error e) : e = .unavailable := by
  rcases bind_eq_error_iff.1 h with hobject | ⟨o, -, h⟩
  · exact object_eq_error hobject
  · rcases howner : o.owner? with _ | owner
    · rw [howner] at h
      exact (Except.error.inj h).symm
    · rw [howner] at h
      rcases bind_eq_error_iff.1 h with hcollection | ⟨col, -, h⟩
      · exact collection_eq_error hcollection
      · split at h
        · cases h
        · exact (Except.error.inj h).symm

/-- A relation that the object does not keep itself is not found if the columns are not there, if
they wait for resolution, or if the window does not fit. -/
theorem links_eq_error {body : Body t} {r : Fin t.toMany.length}
    (h : s.links k body r = .error e) :
    e = .unavailable ∨ (∃ id, e = .unresolvedReferences t.name id) ∨
      ∃ reason, e = .corruptBuffer reason := by
  unfold links at h
  rcases hmany : body.toMany with lists | windows
  · rw [hmany] at h
    cases h
  · rw [hmany] at h
    rcases bind_eq_error_iff.1 h with horigin | ⟨⟨id, ⟨many, one⟩ | many⟩, -, h⟩
    · exact .inl (originOf_eq_error horigin)
    · exact .inr (.inl ⟨id, (Except.error.inj h).symm⟩)
    · exact .inr (.inr (Window.slice_eq_error h))

end Store
end EventModel
