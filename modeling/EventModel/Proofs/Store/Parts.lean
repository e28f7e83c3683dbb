import EventModel.Proofs.Store.Action

/-!
# The parts of an updated store

What each update of a store does to the objects, the collections, the frames and the handles. The
groups of objects that a collection releases or is rebuilt with have one lookup lemma each.
-/

namespace EventModel

/-! ## Lookup in arenas -/

namespace Arena

variable {α : Type} {a : Arena α} {key other : Nat} {x y : α}

theorem get?_insert_of_get? (h : a.get? key = some x) : (a.insert y).get? key = some x := by
  have hne : key ≠ a.next := Nat.ne_of_lt (lt_next_of_get? h)
  simp [get?_insert, hne, h]

theorem get?_insert_eq_some (h : (a.insert y).get? key = some x) :
    a.get? key = some x ∨ key = a.next ∧ x = y := by
  rw [get?_insert] at h
  split at h
  · rename_i hkey
    cases h
    exact .inr ⟨hkey, rfl⟩
  · exact .inl h

@[simp]
theorem get?_insert_next : (a.insert x).get? a.next = some x := by
  simp [get?_insert]

theorem get?_modify_self (h : a.get? key = some x) (f : α → α) :
    (a.modify key f).get? key = some (f x) := by
  simp [get?_modify, h]

theorem get?_modify_ne (h : key ≠ other) (f : α → α) :
    (a.modify key f).get? other = a.get? other := by
  simp [get?_modify, h]

/-- A value of a modified arena is an old one or the result of the modification. -/
theorem get?_modify_eq_some {f : α → α} (h : (a.modify key f).get? other = some y) :
    (key = other ∧ ∃ x, a.get? other = some x ∧ y = f x) ∨ (key ≠ other ∧ a.get? other = some y) := by
  rw [get?_modify] at h
  split at h
  · rename_i hkey
    obtain ⟨x, hx, rfl⟩ := Option.map_eq_some_iff.1 h
    exact .inl ⟨hkey, x, hx, rfl⟩
  · rename_i hne
    exact .inr ⟨hne, h⟩

theorem get?_erase_eq_some (h : (a.erase key).get? other = some y) :
    key ≠ other ∧ a.get? other = some y := by
  rw [get?_erase] at h
  split at h
  · cases h
  · rename_i hne
    exact ⟨hne, h⟩

/-- Arenas with the same values under the same keys are equal. -/
theorem eq_of_get? {b : Arena α} (hnext : a.next = b.next) (hget : ∀ key, a.get? key = b.get? key) :
    a = b := by
  rcases a with ⟨xs⟩
  rcases b with ⟨ys⟩
  refine congrArg Arena.mk (Array.ext hnext fun i hi hi' => ?_)
  simpa [get?, hi, hi'] using hget i

/-- The value that is added last may be changed before it is added. -/
theorem modify_insert_next (f : α → α) : (a.insert x).modify a.next f = a.insert (f x) := by
  have hslots : (a.slots.push (some x)).modify a.slots.size (Option.map f) =
      a.slots.push (some (f x)) := by
    apply Array.ext
    · simp
    · intro i hi _
      rw [Array.getElem_modify]
      by_cases heq : a.slots.size = i
      · subst heq
        simp
      · have hlt : i < a.slots.size := by
          simp at hi
          omega
        simp [heq, Array.getElem_push_lt hlt]
  simp [modify, insert, next, hslots]

/-- Modifications that agree on the value under the key have the same result. -/
theorem modify_congr {f g : α → α} (h : ∀ x, a.get? key = some x → f x = g x) :
    a.modify key f = a.modify key g := by
  have hslots : a.slots.modify key (Option.map f) = a.slots.modify key (Option.map g) := by
    apply Array.ext
    · simp
    · intro i hi _
      simp only [Array.getElem_modify]
      split
      · rename_i heq
        subst heq
        have hlt : key < a.slots.size := by simpa using hi
        rcases hx : a.slots[key] with _ | x
        · rfl
        · have hget : a.get? key = some x := by simp [get?, hlt, hx]
          simp [h x hget]
      · rfl
  simp [modify, hslots]

theorem erase_of_get?_eq_none (h : a.get? key = none) : a.erase key = a := by
  have hslots : (a.slots.modify key fun _ => none) = a.slots := by
    apply Array.ext
    · simp
    · intro i hi hi'
      simp only [Array.getElem_modify]
      split
      · rename_i heq
        subst heq
        have hnone : a.slots[key]? = some a.slots[key] := by simp [hi']
        rw [get?, hnone] at h
        exact h.symm
      · rfl
  simp [erase, hslots]

theorem any_eq_true_iff {p : α → Bool} :
    a.any p = true ↔ ∃ key x, a.get? key = some x ∧ p x = true := by
  rw [any, Array.any_eq_true]
  constructor
  · rintro ⟨i, hi, h⟩
    rcases hx : a.slots[i] with _ | x
    · rw [hx] at h
      cases h
    · rw [hx] at h
      exact ⟨i, x, by simp [get?, hi, hx], h⟩
  · rintro ⟨key, x, hget, h⟩
    have hlt : key < a.slots.size := lt_next_of_get? hget
    refine ⟨key, hlt, ?_⟩
    have hslot : a.slots[key] = some x := by simpa [get?, hlt] using hget
    rw [hslot]
    exact h

theorem any_eq_false_iff {p : α → Bool} :
    a.any p = false ↔ ∀ key x, a.get? key = some x → p x = false := by
  rw [← Bool.not_eq_true, any_eq_true_iff]
  simp

/-! ## Counting the values of an arena -/

theorem countP_modify_slots {β : Type} {xs : Array β} {i : Nat} (h : i < xs.size) (g : β → β)
    (q : β → Bool) : (xs.modify i g).countP q + (if q xs[i] then 1 else 0) =
      xs.countP q + if q (g xs[i]) then 1 else 0 := by
  have hset : xs.modify i g = xs.set i (g xs[i]) := by
    apply Array.ext
    · simp
    · intro j hj _
      rw [Array.getElem_modify, Array.getElem_set]
      split
      · rename_i heq
        subst heq
        rfl
      · rfl
  have hle : (if q xs[i] = true then 1 else 0) ≤ xs.countP q := by
    split
    · rename_i hq
      exact Array.countP_pos_iff.2 ⟨xs[i], Array.getElem_mem h, hq⟩
    · exact Nat.zero_le _
  rw [hset, Array.countP_set]
  omega

theorem exists_slot_of_get? (h : a.get? key = some x) :
    ∃ hlt : key < a.slots.size, a.slots[key] = some x := by
  have hlt : key < a.slots.size := lt_next_of_get? h
  exact ⟨hlt, by simpa [get?, hlt] using h⟩

theorem countP_insert (p : α → Bool) :
    (a.insert x).countP p = a.countP p + if p x then 1 else 0 := by
  simp [countP, insert, Array.countP_push]

/-- A value that is modified counts as the result of the modification. -/
theorem countP_modify (h : a.get? key = some x) (f : α → α) (p : α → Bool) :
    (a.modify key f).countP p + (if p x then 1 else 0) = a.countP p + if p (f x) then 1 else 0 := by
  obtain ⟨hlt, hslot⟩ := exists_slot_of_get? h
  have hcount := countP_modify_slots hlt (Option.map f) fun
    | some x => p x
    | none => false
  rw [hslot] at hcount
  exact hcount

/-- A value that is erased counts no more. -/
theorem countP_erase (h : a.get? key = some x) (p : α → Bool) :
    (a.erase key).countP p + (if p x then 1 else 0) = a.countP p := by
  obtain ⟨hlt, hslot⟩ := exists_slot_of_get? h
  have hcount := countP_modify_slots hlt (fun _ => none) fun
    | some x => p x
    | none => false
  rw [hslot] at hcount
  exact hcount

theorem countP_mono {p q : α → Bool} (h : ∀ x, p x = true → q x = true) :
    a.countP p ≤ a.countP q := by
  refine Array.countP_mono_left fun slot _ hslot => ?_
  rcases slot with _ | x
  · cases hslot
  · exact h x hslot

theorem countP_eq_zero_iff {p : α → Bool} : a.countP p = 0 ↔ a.any p = false := by
  rw [countP, Array.countP_eq_zero, any, Array.any_eq_false]
  constructor
  · intro h i hi
    exact h a.slots[i] (Array.getElem_mem hi)
  · intro h slot hslot
    obtain ⟨i, hi, rfl⟩ := Array.getElem_of_mem hslot
    exact h i hi

end Arena

namespace Store

theorem eq_of_fields {s s' : Store} (hobjects : s.objects = s'.objects)
    (hcollections : s.collections = s'.collections) (hframes : s.frames = s'.frames)
    (hhandles : s.handles = s'.handles) (hserial : s.serial = s'.serial) : s = s' := by
  rcases s with ⟨objects, collections, frames, handles, serial⟩
  cases hobjects
  cases hcollections
  cases hframes
  cases hhandles
  cases hserial
  rfl

/-! ## Single updates -/

section Parts

variable (s : Store) (k : ObjectKey) (c : CollectionKey) (f : FrameKey)

@[simp]
theorem modifyObject_objects (g : Object → Object) :
    (s.modifyObject k g).objects = s.objects.modify k g := rfl

@[simp]
theorem modifyObject_collections (g : Object → Object) :
    (s.modifyObject k g).collections = s.collections := rfl

@[simp]
theorem modifyObject_frames (g : Object → Object) : (s.modifyObject k g).frames = s.frames := rfl

@[simp]
theorem modifyObject_handles (g : Object → Object) :
    (s.modifyObject k g).handles = s.handles := rfl

@[simp]
theorem modifyCollection_objects (g : Collection → Collection) :
    (s.modifyCollection c g).objects = s.objects := rfl

@[simp]
theorem modifyCollection_collections (g : Collection → Collection) :
    (s.modifyCollection c g).collections = s.collections.modify c g := rfl

@[simp]
theorem modifyCollection_frames (g : Collection → Collection) :
    (s.modifyCollection c g).frames = s.frames := rfl

@[simp]
theorem modifyCollection_handles (g : Collection → Collection) :
    (s.modifyCollection c g).handles = s.handles := rfl

@[simp]
theorem modifyFrame_objects (g : Frame → Frame) : (s.modifyFrame f g).objects = s.objects := rfl

@[simp]
theorem modifyFrame_collections (g : Frame → Frame) :
    (s.modifyFrame f g).collections = s.collections := rfl

@[simp]
theorem modifyFrame_frames (g : Frame → Frame) :
    (s.modifyFrame f g).frames = s.frames.modify f g := rfl

@[simp]
theorem modifyFrame_handles (g : Frame → Frame) : (s.modifyFrame f g).handles = s.handles := rfl

@[simp]
theorem setBody_objects {t : DataType} (body : Body t) :
    (s.setBody k body).objects =
      s.objects.modify k fun o => if h : o.type = t then { o with body := h ▸ body } else o := rfl

@[simp]
theorem setBody_collections {t : DataType} (body : Body t) :
    (s.setBody k body).collections = s.collections := rfl

@[simp]
theorem setBody_frames {t : DataType} (body : Body t) : (s.setBody k body).frames = s.frames := rfl

@[simp]
theorem setBody_handles {t : DataType} (body : Body t) :
    (s.setBody k body).handles = s.handles := rfl

@[simp]
theorem advanceOwner_objects : (s.advanceOwner k).objects = s.objects := by
  unfold advanceOwner
  split <;> rfl

@[simp]
theorem advanceOwner_frames : (s.advanceOwner k).frames = s.frames := by
  unfold advanceOwner
  split <;> rfl

@[simp]
theorem advanceOwner_handles : (s.advanceOwner k).handles = s.handles := by
  unfold advanceOwner
  split <;> rfl

/-- The owner of an object counts the change; other collections stay as they are. -/
theorem advanceOwner_get? :
    (s.advanceOwner k).collections.get? c =
      if (s.objects.get? k).bind Object.owner? = some c
      then (s.collections.get? c).map Collection.advance else s.collections.get? c := by
  unfold advanceOwner
  rcases (s.objects.get? k).bind Object.owner? with _ | owner
  · simp
  · simp [Arena.get?_modify]

@[simp]
theorem advanceOwner_next : (s.advanceOwner k).collections.next = s.collections.next := by
  unfold advanceOwner
  split <;> simp

@[simp]
theorem withHandle_collections (target : Option ObjectKey) :
    (s.withHandle target).collections = s.collections := by
  cases target <;> rfl

@[simp]
theorem withHandle_frames (target : Option ObjectKey) :
    (s.withHandle target).frames = s.frames := by
  cases target <;> rfl

@[simp]
theorem withHandle_handles (target : Option ObjectKey) :
    (s.withHandle target).handles = s.handles.insert target := by
  cases target <;> rfl

@[simp]
theorem withHandle_none_objects : (s.withHandle none).objects = s.objects := rfl

@[simp]
theorem withHandle_some_objects :
    (s.withHandle (some k)).objects = s.objects.modify k Object.acquire := rfl

theorem drop_collections (r : Reference) : (drop r s).2.collections = s.collections := by
  rw [drop_apply]
  split <;> rfl

theorem drop_handles_get? (r : Reference) (h : HandleKey) :
    (drop r s).2.handles.get? h = if r.key = h then none else s.handles.get? h := by
  rw [drop_apply]
  split
  · change ((s.handles.modify r.key fun _ => none).erase r.key).get? h = _
    rw [Arena.get?_erase, Arena.get?_modify]
    split <;> rfl
  · exact Arena.get?_erase ..

theorem drop_objects_get? (r : Reference) :
    (drop r s).2.objects.get? k =
      if s.target r = some k then (s.objects.get? k).map Object.letGo else s.objects.get? k := by
  rw [drop_apply]
  rcases htarget : s.target r with _ | k'
  · rfl
  · change (s.objects.modify k' Object.letGo).get? k = _
    simp only [Arena.get?_modify, Option.some_inj]

end Parts

/-! ## Groups of objects -/

/-- The store in which some objects are released. -/
def releaseAll (s : Store) (ks : List ObjectKey) : Store :=
  ks.foldl (fun s k => s.modifyObject k Object.release) s

@[simp]
theorem releaseAll_collections (s : Store) (ks : List ObjectKey) :
    (s.releaseAll ks).collections = s.collections := by
  induction ks generalizing s with
  | nil => rfl
  | cons k ks ih => exact ih _

@[simp]
theorem releaseAll_frames (s : Store) (ks : List ObjectKey) :
    (s.releaseAll ks).frames = s.frames := by
  induction ks generalizing s with
  | nil => rfl
  | cons k ks ih => exact ih _

@[simp]
theorem releaseAll_handles (s : Store) (ks : List ObjectKey) :
    (s.releaseAll ks).handles = s.handles := by
  induction ks generalizing s with
  | nil => rfl
  | cons k ks ih => exact ih _

@[simp]
theorem releaseAll_next (s : Store) (ks : List ObjectKey) :
    (s.releaseAll ks).objects.next = s.objects.next := by
  induction ks generalizing s with
  | nil => rfl
  | cons k ks ih => simpa [releaseAll] using ih (s.modifyObject k Object.release)

theorem release_release (o : Object) : o.release.release = o.release := rfl

/-- The listed objects are released, and all others stay as they are. -/
theorem releaseAll_get? (s : Store) (ks : List ObjectKey) (k : ObjectKey) :
    (s.releaseAll ks).objects.get? k =
      if k ∈ ks then (s.objects.get? k).map Object.release else s.objects.get? k := by
  induction ks generalizing s with
  | nil => simp [releaseAll]
  | cons head ks ih =>
    have hstep : s.releaseAll (head :: ks) = (s.modifyObject head Object.release).releaseAll ks :=
      rfl
    rw [hstep, ih, modifyObject_objects, Arena.get?_modify]
    by_cases hhead : head = k
    · subst hhead
      cases s.objects.get? head <;> simp [release_release]
    · have hne : k ≠ head := fun h => hhead h.symm
      simp [hhead, hne]

section AddOwned

variable {t : DataType} (c : CollectionKey)

@[simp]
theorem addOwned_collections (position : Nat) (bodies : List (Body t)) (s : Store) :
    (addOwned c position bodies s).collections = s.collections := by
  induction bodies generalizing position s with
  | nil => rfl
  | cons body rest ih => exact ih _ _

@[simp]
theorem addOwned_frames (position : Nat) (bodies : List (Body t)) (s : Store) :
    (addOwned c position bodies s).frames = s.frames := by
  induction bodies generalizing position s with
  | nil => rfl
  | cons body rest ih => exact ih _ _

@[simp]
theorem addOwned_handles (position : Nat) (bodies : List (Body t)) (s : Store) :
    (addOwned c position bodies s).handles = s.handles := by
  induction bodies generalizing position s with
  | nil => rfl
  | cons body rest ih => exact ih _ _

@[simp]
theorem addOwned_next (position : Nat) (bodies : List (Body t)) (s : Store) :
    (addOwned c position bodies s).objects.next = s.objects.next + bodies.length := by
  induction bodies generalizing position s with
  | nil => rfl
  | cons body rest ih =>
    rw [addOwned, ih]
    simp
    omega

theorem addOwned_get?_of_lt {position : Nat} {bodies : List (Body t)} {s : Store} {k : ObjectKey}
    (h : k < s.objects.next) :
    (addOwned c position bodies s).objects.get? k = s.objects.get? k := by
  induction bodies generalizing position s with
  | nil => rfl
  | cons body rest ih =>
    have hne : k ≠ s.objects.next := Nat.ne_of_lt h
    have hlt : k < (s.objects.insert ⟨t, .owned c position, body⟩).next := by
      rw [Arena.next_insert]
      exact Nat.lt_succ_of_lt h
    rw [addOwned, ih hlt]
    simp [Arena.get?_insert, hne]

/-- The object of each body gets the next key and the next position. -/
theorem addOwned_get?_next {position : Nat} {bodies : List (Body t)} {s : Store} {i : Nat}
    (h : i < bodies.length) :
    (addOwned c position bodies s).objects.get? (s.objects.next + i) =
      some ⟨t, .owned c (position + i), bodies[i]⟩ := by
  induction bodies generalizing position s i with
  | nil => simp at h
  | cons body rest ih =>
    rw [addOwned]
    cases i with
    | zero =>
      -- the first object is not touched by those after it
      rw [addOwned_get?_of_lt c (by simp)]
      simp [Arena.get?_insert]
    | succ i =>
      have hi : i < rest.length := by simpa using h
      have hkey : s.objects.next + (i + 1) =
          ({ s with objects := s.objects.insert ⟨t, .owned c position, body⟩ } :
            Store).objects.next + i := by
        simp
        omega
      rw [hkey, ih hi]
      simp
      omega

end AddOwned

section AssignAllSingles

variable {t : DataType} (columns : Vector (List (Option ObjectKey)) t.toOne.length)

/-- The store in which one object got its to-one relations. -/
def assignAt (position : Nat) (k : ObjectKey) (s : Store) : Store :=
  match s.body t k with
  | .ok body => s.setBody k (assignSingles columns position body)
  | .error _ => s

theorem assignAllSingles_cons (position : Nat) (k : ObjectKey) (rest : List ObjectKey) (s : Store) :
    assignAllSingles columns position (k :: rest) s =
      assignAllSingles columns (position + 1) rest (assignAt columns position k s) := rfl

@[simp]
theorem assignAt_collections (position : Nat) (k : ObjectKey) (s : Store) :
    (assignAt columns position k s).collections = s.collections := by
  unfold assignAt
  split <;> rfl

@[simp]
theorem assignAt_frames (position : Nat) (k : ObjectKey) (s : Store) :
    (assignAt columns position k s).frames = s.frames := by
  unfold assignAt
  split <;> rfl

/-- What the assignment to one object leaves alone, the assignment to all of them does. -/
theorem assignAllSingles_congr {α : Type} (part : Store → α)
    (h : ∀ position k s, part (assignAt columns position k s) = part s) (position : Nat)
    (ks : List ObjectKey) (s : Store) :
    part (assignAllSingles columns position ks s) = part s := by
  induction ks generalizing position s with
  | nil => rfl
  | cons k rest ih => rw [assignAllSingles_cons, ih, h]

@[simp]
theorem assignAllSingles_collections (position : Nat) (ks : List ObjectKey) (s : Store) :
    (assignAllSingles columns position ks s).collections = s.collections :=
  assignAllSingles_congr columns (·.collections) (assignAt_collections columns) position ks s

@[simp]
theorem assignAllSingles_frames (position : Nat) (ks : List ObjectKey) (s : Store) :
    (assignAllSingles columns position ks s).frames = s.frames :=
  assignAllSingles_congr columns (·.frames) (assignAt_frames columns) position ks s

end AssignAllSingles
end Store
end EventModel
