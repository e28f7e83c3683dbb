import EventModel.Proofs.Store.Action
import EventModel.Store.Frame

/-!
# Operations that check an index

Some operations fail for one reason only: an index that they are given is out of range.
`RangeChecked` says of a run under which condition it succeeds and what it then leads to, and that
otherwise it reports an index out of range. The rules below put such runs together, step after step
and in loops.
-/

namespace EventModel.Store

variable {α β : Type} {a : Action α} {s : Store} {p q : Prop}

/-- The run succeeds exactly if `p` holds, and leads to `Q` then. Otherwise it reports an index that is
not below the number of things it chooses from. -/
structure RangeChecked (a : Action α) (s : Store) (p : Prop) (Q : α → Store → Prop) : Prop where
  succeeds : p → ∃ x s', a s = (.ok x, s') ∧ Q x s'
  fails : ¬ p → ∃ index len, len ≤ index ∧ (a s).1 = .error (.outOfRange index len)

namespace RangeChecked

variable {Q : α → Store → Prop}

theorem of_ok {x : α} {s' : Store} (hrun : a s = (.ok x, s')) (hQ : Q x s') :
    RangeChecked a s True Q where
  succeeds _ := ⟨x, s', hrun, hQ⟩
  fails hnot := absurd trivial hnot

theorem congr (h : RangeChecked a s p Q) (hiff : p ↔ q) : RangeChecked a s q Q where
  succeeds hq := h.succeeds (hiff.2 hq)
  fails hnot := h.fails (mt hiff.1 hnot)

theorem imp {R : α → Store → Prop} (h : RangeChecked a s p Q)
    (hQR : ∀ x s', p → Q x s' → R x s') : RangeChecked a s p R where
  succeeds hp := by
    rcases h.succeeds hp with ⟨x, s', hrun, hQ⟩
    exact ⟨x, s', hrun, hQR x s' hp hQ⟩
  fails := h.fails

/-- What follows an operation runs only if the operation succeeds. -/
theorem bind {f : α → Action β} {R : β → Store → Prop} (h : RangeChecked a s p Q)
    (hf : ∀ x s', p → Q x s' → RangeChecked (f x) s' q R) : RangeChecked (a >>= f) s (p ∧ q) R where
  succeeds := by
    rintro ⟨hp, hq⟩
    rcases h.succeeds hp with ⟨x, s', hrun, hQ⟩
    rw [bind_apply_of_ok hrun]
    exact (hf x s' hp hQ).succeeds hq
  fails hnot := by
    by_cases hp : p
    · rcases h.succeeds hp with ⟨x, s', hrun, hQ⟩
      rw [bind_apply_of_ok hrun]
      exact (hf x s' hp hQ).fails fun hq => hnot ⟨hp, hq⟩
    · rcases h.fails hp with ⟨index, len, hlen, herror⟩
      refine ⟨index, len, hlen, ?_⟩
      rw [bind_apply]
      rcases hrun : a s with ⟨e | x, s'⟩
      · rw [hrun] at herror
        exact congrArg _ (Except.error.inj herror)
      · rw [hrun] at herror
        cases herror

/-- An operation that always succeeds adds no condition. -/
theorem bind_of_ok {f : α → Action β} {R : β → Store → Prop} {x : α} {s' : Store}
    (hrun : a s = (.ok x, s')) (hf : RangeChecked (f x) s' q R) : RangeChecked (a >>= f) s q R := by
  have hbind : (a >>= f) s = f x s' := bind_apply_of_ok hrun
  exact ⟨hbind ▸ hf.succeeds, hbind ▸ hf.fails⟩

section Loops

variable {γ : Type} {r : γ → Prop} {I : List γ → List γ → Store → Prop}

theorem forEach_from {f : γ → Action Unit}
    (hstep : ∀ done x rest s, I done (x :: rest) s →
      RangeChecked (f x) s (r x) fun _ s' => I (done ++ [x]) rest s') (rest : List γ) :
    ∀ {done : List γ} {s : Store}, I done rest s →
      RangeChecked (Store.forEach f rest) s (∀ x ∈ rest, r x) fun _ s' => I (done ++ rest) [] s' := by
  -- on the elements to come, for any that are done
  induction rest with
  | nil =>
    intro done s hI
    rw [← List.append_nil done] at hI
    have hnil : RangeChecked (Store.forEach f []) s True fun _ s' => I (done ++ []) [] s' :=
      of_ok rfl hI
    exact hnil.congr (iff_of_true trivial (List.forall_mem_nil _))
  | cons x rest ih =>
    intro done s hI
    have hrest : RangeChecked (Store.forEach f (x :: rest)) s (r x ∧ ∀ y ∈ rest, r y)
        fun _ s' => I (done ++ [x] ++ rest) [] s' :=
      (hstep done x rest s hI).bind fun _ s' _ hI' => ih hI'
    rw [List.append_assoc, List.singleton_append] at hrest
    exact hrest.congr List.forall_mem_cons.symm

/-- The rule of loops: `I` holds of the elements done and those to come. -/
theorem forEach {f : γ → Action Unit}
    (hstep : ∀ done x rest s, I done (x :: rest) s →
      RangeChecked (f x) s (r x) fun _ s' => I (done ++ [x]) rest s') (xs : List γ)
    (hI : I [] xs s) :
    RangeChecked (Store.forEach f xs) s (∀ x ∈ xs, r x) fun _ s' => I xs [] s' :=
  forEach_from hstep xs hI

/-- The rule of loops over elements with their positions: as many are done as the position says. -/
theorem forEach_zipIdx {f : γ → Nat → Action Unit}
    (hstep : ∀ done x rest s, I done (x :: rest) s →
      RangeChecked (f x done.length) s (r x) fun _ s' => I (done ++ [x]) rest s') (xs : List γ)
    (hI : I [] xs s) :
    RangeChecked (Store.forEach (fun (x, i) => f x i) xs.zipIdx) s (∀ x ∈ xs, r x)
      fun _ s' => I xs [] s' := by
  have hfst : xs.zipIdx.map Prod.fst = xs := List.zipIdx_map_fst 0 xs
  -- the positions of the elements to come start from the number of those done
  have hloop := forEach (f := fun (x, i) => f x i) (r := fun pair => r pair.1) (s := s)
    (I := fun done rest s => rest = (rest.map Prod.fst).zipIdx done.length ∧
      I (done.map Prod.fst) (rest.map Prod.fst) s) ?_ xs.zipIdx ⟨by rw [hfst]; rfl, by rwa [hfst]⟩
  · have hall : (∀ pair ∈ xs.zipIdx, r pair.1) ↔ ∀ x ∈ xs, r x := by
      rw [← List.forall_mem_map (P := r), hfst]
    refine (hloop.congr hall).imp ?_
    rintro - s' - ⟨-, hdone⟩
    rwa [hfst] at hdone
  · rintro done ⟨x, i⟩ rest s ⟨hrest, hI⟩
    rw [List.map_cons, List.zipIdx_cons] at hrest
    rcases List.cons.inj hrest with ⟨hpair, hnext⟩
    cases hpair
    have hrun := hstep (done.map Prod.fst) x (rest.map Prod.fst) s hI
    rw [List.length_map] at hrun
    refine hrun.imp ?_
    intro _ s' _ hI'
    rw [List.length_append, List.map_append]
    exact ⟨hnext, hI'⟩

end Loops

end RangeChecked

/-- An operation that is undone if it fails. -/
theorem rangeChecked_transaction {Q : α → Store → Prop} (h : RangeChecked a s p Q) :
    (p → ∃ x s', transaction a s = (.ok x, s') ∧ Q x s') ∧
      (¬ p → ∃ index len, len ≤ index ∧ transaction a s = (.error (.outOfRange index len), s)) := by
  constructor
  · intro hp
    rcases h.succeeds hp with ⟨x, s', hrun, hQ⟩
    exact ⟨x, s', by rw [transaction, hrun], hQ⟩
  · intro hnot
    rcases h.fails hnot with ⟨index, len, hlen, herror⟩
    refine ⟨index, len, hlen, ?_⟩
    unfold transaction
    rcases hrun : a s with ⟨e | x, s'⟩
    · rw [hrun] at herror
      rw [Except.error.inj herror]
    · rw [hrun] at herror
      cases herror

end EventModel.Store
