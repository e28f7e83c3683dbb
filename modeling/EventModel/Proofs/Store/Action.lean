import EventModel.Store.Frame

/-!
# Running operations

An operation maps a store to a result and a store. This module computes both for the ways in which
operations are put together, and for the operations that make and give back handles. Later proofs
rewrite with these equations and never look at how an `Action` is represented.
-/

namespace EventModel.Store

variable {α β : Type}

/-! ## Sequencing -/

/-- Operations are put together in the same way whatever their errors are. -/
theorem bind_apply {ε : Type} (a : ExceptT ε (StateM Store) α) (f : α → ExceptT ε (StateM Store) β)
    (s : Store) :
    (a >>= f) s =
      match a s with
      | (.ok x, s') => f x s'
      | (.error e, s') => (.error e, s') := by
  change (ExceptT.bind a f) s = _
  simp only [ExceptT.bind, ExceptT.mk, bind, StateT.bind]
  rcases a s with ⟨x | x, s'⟩ <;> rfl

theorem map_apply (g : α → β) (a : Action α) (s : Store) :
    (g <$> a) s =
      match a s with
      | (.ok x, s') => (.ok (g x), s')
      | (.error e, s') => (.error e, s') := by
  change (ExceptT.map g a) s = _
  simp only [ExceptT.map, ExceptT.mk, bind, StateT.bind]
  rcases a s with ⟨x | x, s'⟩ <;> rfl

theorem pure_apply (x : α) (s : Store) : (pure x : Action α) s = (.ok x, s) := rfl

theorem get_apply (s : Store) : (get : Action Store) s = (.ok s, s) := rfl

theorem set_apply (s' s : Store) : (set s' : Action PUnit) s = (.ok ⟨⟩, s') := rfl

theorem modify_apply (g : Store → Store) (s : Store) :
    (modify g : Action PUnit) s = (.ok ⟨⟩, g s) := rfl

/-- A question about the store leaves it as it is. -/
theorem ask_apply (x : Except Error α) (s : Store) : (liftM x : Action α) s = (x, s) := by
  cases x <;> rfl

/-- A question that fails changes nothing, so what holds before holds after it. -/
theorem ask_bind_induct {P : Store → Prop} {x : Except Error α} {f : α → Action β} {s : Store}
    (hs : P s) (hf : ∀ y, x = .ok y → P (f y s).2) : P ((liftM x >>= f) s).2 := by
  rw [bind_apply, ask_apply]
  rcases x with e | y
  · exact hs
  · exact hf y rfl

/-- What holds after the first of two operations and is kept by the second holds after both. -/
theorem bind_induct {P : Store → Prop} {a : Action α} {f : α → Action β} {s : Store}
    (ha : P (a s).2) (hf : ∀ x s', a s = (.ok x, s') → P s' → P (f x s').2) :
    P ((a >>= f) s).2 := by
  rw [bind_apply]
  rcases hrun : a s with ⟨e | x, s'⟩
  · rw [hrun] at ha
    exact ha
  · rw [hrun] at ha
    exact hf x s' hrun ha

theorem liftExcept_apply (x : Except Error α) (s : Store) : liftExcept x s = (x, s) := rfl

/-- What a run of two operations ends in, if the first one succeeds. -/
theorem bind_apply_of_ok {ε : Type} {a : ExceptT ε (StateM Store) α}
    {f : α → ExceptT ε (StateM Store) β} {s s' : Store} {x : α} (h : a s = (.ok x, s')) :
    (a >>= f) s = f x s' := by
  rw [bind_apply, h]

/-- A run of two operations that succeeds is two runs that do. -/
theorem bind_eq_ok {a : Action α} {f : α → Action β} {s t : Store} {y : β}
    (h : (a >>= f) s = (.ok y, t)) : ∃ x s', a s = (.ok x, s') ∧ f x s' = (.ok y, t) := by
  rw [bind_apply] at h
  rcases ha : a s with ⟨e | x, s'⟩
  · rw [ha] at h
    cases h
  · rw [ha] at h
    exact ⟨x, s', rfl, h⟩

/-! ## Handles -/

/-- The store with one more handle, which points at `target`. -/
def withHandle (s : Store) (target : Option ObjectKey) : Store :=
  let held := { s with handles := s.handles.insert target }
  match target with
  | some k => held.modifyObject k Object.acquire
  | none => held

/-- The store in which the handle under a key no longer points at the object `k`. -/
def withoutTarget (s : Store) (h : HandleKey) (k : ObjectKey) : Store :=
  { s with handles := s.handles.modify h fun _ => none }.modifyObject k Object.letGo

theorem hold_apply (target : Option ObjectKey) (s : Store) :
    hold target s = (.ok s.handles.next, s.withHandle target) := by
  cases target <;> rfl

theorem refer_apply (target : Option ObjectKey) (s : Store) :
    refer target s = (.ok ⟨s.handles.next⟩, s.withHandle target) := by
  rw [refer, bind_apply_of_ok (hold_apply target s), pure_apply]

theorem handleTo_apply (t : DataType) (target : Option ObjectKey) (s : Store) :
    handleTo t target s = (.ok ⟨⟨s.handles.next⟩⟩, s.withHandle target) := by
  rw [handleTo, bind_apply_of_ok (refer_apply target s), pure_apply]

theorem mutableHandleTo_apply (t : DataType) (target : Option ObjectKey) (s : Store) :
    mutableHandleTo t target s = (.ok ⟨⟨⟨s.handles.next⟩⟩⟩, s.withHandle target) := by
  rw [mutableHandleTo, bind_apply_of_ok (handleTo_apply t target s), pure_apply]

theorem unlink_apply (r : Reference) (s : Store) :
    unlink r s =
      match s.target r with
      | some k => (.ok (), s.withoutTarget r.key k)
      | none => (.ok (), s) := by
  unfold unlink
  cases s.target r <;> rfl

theorem drop_apply (r : Reference) (s : Store) :
    drop r s =
      match s.target r with
      | some k => (.ok (), { s.withoutTarget r.key k with
          handles := (s.withoutTarget r.key k).handles.erase r.key })
      | none => (.ok (), { s with handles := s.handles.erase r.key }) := by
  rw [drop, bind_apply, unlink_apply]
  rcases s.target r with _ | k <;> rfl

end EventModel.Store
