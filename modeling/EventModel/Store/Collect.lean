import EventModel.Prelude

/-!
# Vectors of results

`tryOfFn` builds a vector from the results of a function that may fail. The first failure, in the
order of the indices, is the failure of the whole.
-/

namespace EventModel

/-- The vector of the results of `f`, unless one of them is a failure. -/
def tryOfFn : {n : Nat} → (Fin n → Except ε α) → Except ε (Vector α n)
  | 0, _ => .ok (Vector.ofFn Fin.elim0)
  | n + 1, f =>
    match tryOfFn fun i : Fin n => f i.castSucc with
    | .error e => .error e
    | .ok front =>
      match f (Fin.last n) with
      | .error e => .error e
      | .ok last => .ok (front.push last)

/-- Every element is the result at its index. -/
theorem tryOfFn_eq_ok {f : Fin n → Except ε α} {xs : Vector α n} (h : tryOfFn f = .ok xs)
    (i : Nat) (hi : i < n) : f ⟨i, hi⟩ = .ok xs[i] := by
  induction n with
  | zero => omega
  | succ n ih =>
    unfold tryOfFn at h
    split at h
    · cases h
    · rename_i front hfront
      split at h
      · cases h
      · rename_i last hlast
        cases h
        by_cases hlt : i < n
        · simpa [Vector.getElem_push, hlt] using ih hfront hlt
        · obtain rfl : i = n := by omega
          simpa [Vector.getElem_push, Fin.last] using hlast

/-- Without failures nothing is lost. -/
theorem tryOfFn_of_forall {f : Fin n → Except ε α} {g : Fin n → α} (h : ∀ i, f i = .ok (g i)) :
    tryOfFn f = .ok (Vector.ofFn g) := by
  induction n with
  | zero =>
    simp only [tryOfFn, Except.ok.injEq]
    ext i hi
    omega
  | succ n ih =>
    have hfront : (tryOfFn fun i : Fin n => f i.castSucc) =
        .ok (Vector.ofFn fun i => g i.castSucc) :=
      ih fun i => h i.castSucc
    unfold tryOfFn
    rw [hfront, h]
    refine congrArg Except.ok ?_
    ext i hi
    by_cases hlt : i < n
    · simp [hlt]
    · obtain rfl : i = n := by omega
      simp [Fin.last]

end EventModel
