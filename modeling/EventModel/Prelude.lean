/-!
# Powers and indices

Two conventions that the whole library elaborates under: a power of numbers is the one that
evaluates, and a vector is read and changed at a `Fin` without a side condition.
-/

-- A literal exponent is resolved through the default instances, any other through the instances.
attribute [instance (2000), default_instance 20000] instPowNat

namespace EventModel

/-- Every index of `Fin n` is one of a vector of length `n`. -/
instance (priority := 2000) instGetElemVectorFin :
    GetElem (Vector α n) (Fin n) α fun _ _ => True where
  getElem xs i _ := xs.get i

@[simp]
theorem getElem_fin (xs : Vector α n) (i : Fin n) : xs[i] = getElem xs i.val i.isLt :=
  rfl

/-- `xs` with `x` at the index `i`. -/
def setAt (xs : Vector α n) (i : Fin n) (x : α) : Vector α n :=
  xs.set i x i.isLt

theorem getElem_setAt (xs : Vector α n) (i j : Fin n) (x : α) :
    (setAt xs i x)[j] = if i = j then x else xs[j] := by
  simp [setAt, Vector.getElem_set, Fin.ext_iff]

end EventModel
