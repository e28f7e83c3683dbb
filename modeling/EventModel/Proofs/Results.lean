import Mathlib.Data.List.Forall2
import EventModel.Store.Collect

/-!
# Computations that may fail

A sequence of computations succeeds if every one of them does. Proofs about readers and writers take
a success apart with these lemmas and put one together from its parts.
-/

namespace EventModel

variable {ε : Type} {α β : Type}

theorem bind_eq_ok_iff {x : Except ε α} {f : α → Except ε β} {b : β} :
    (x >>= f) = .ok b ↔ ∃ a, x = .ok a ∧ f a = .ok b := by
  rcases x with e | a
  · simp [bind, Except.bind]
  · simp [bind, Except.bind]

theorem map_eq_ok_iff {x : Except ε α} {f : α → β} {b : β} :
    (f <$> x) = .ok b ↔ ∃ a, x = .ok a ∧ f a = b := by
  rcases x with e | a
  · simp [Functor.map, Except.map]
  · simp [Functor.map, Except.map]

theorem bind_eq_error_iff {x : Except ε α} {f : α → Except ε β} {e : ε} :
    (x >>= f) = .error e ↔ x = .error e ∨ ∃ a, x = .ok a ∧ f a = .error e := by
  rcases x with e' | a
  · simp [bind, Except.bind]
  · simp [bind, Except.bind]

/-- A traversal succeeds with the results of the elements, in their order. -/
theorem mapM_eq_ok_iff {f : α → Except ε β} {xs : List α} {ys : List β} :
    xs.mapM f = .ok ys ↔ List.Forall₂ (fun x y => f x = .ok y) xs ys := by
  induction xs generalizing ys with
  | nil =>
    rw [List.mapM_nil, List.forall₂_nil_left_iff]
    exact ⟨fun h => (Except.ok.inj h).symm, fun h => by rw [h]; rfl⟩
  | cons x xs ih =>
    rw [List.mapM_cons, bind_eq_ok_iff, List.forall₂_cons_left_iff]
    constructor
    · rintro ⟨y, hy, h⟩
      obtain ⟨rest, hrest, heq⟩ := bind_eq_ok_iff.1 h
      exact ⟨y, rest, hy, ih.1 hrest, (Except.ok.inj heq).symm⟩
    · rintro ⟨y, rest, hy, hrest, rfl⟩
      exact ⟨y, hy, bind_eq_ok_iff.2 ⟨rest, ih.2 hrest, rfl⟩⟩

/-- Related lists have a partner for each element. -/
theorem exists_right_of_forall₂ {R : α → β → Prop} {xs : List α} {ys : List β}
    (h : List.Forall₂ R xs ys) {x : α} (hx : x ∈ xs) : ∃ y ∈ ys, R x y := by
  induction h with
  | nil => cases hx
  | cons hhead _ ih =>
    rcases List.mem_cons.1 hx with rfl | hrest
    · exact ⟨_, List.mem_cons_self, hhead⟩
    · obtain ⟨y, hy, hrel⟩ := ih hrest
      exact ⟨y, List.mem_cons_of_mem _ hy, hrel⟩

/-- Related lists are related place by place. -/
theorem getElem?_of_forall₂ {R : α → β → Prop} {xs : List α} {ys : List β}
    (h : List.Forall₂ R xs ys) {i : Nat} {x : α} (hx : xs[i]? = some x) :
    ∃ y, ys[i]? = some y ∧ R x y := by
  induction h generalizing i with
  | nil => simp at hx
  | @cons head y rest ys hhead _ ih =>
    cases i with
    | zero =>
      have heq : head = x := by simpa using hx
      exact ⟨y, rfl, heq ▸ hhead⟩
    | succ i => exact ih (by simpa using hx)

/-- If every element has a partner, there is a list of partners. -/
theorem exists_forall₂ {R : α → β → Prop} {xs : List α} (h : ∀ x ∈ xs, ∃ y, R x y) :
    ∃ ys, List.Forall₂ R xs ys := by
  induction xs with
  | nil => exact ⟨[], .nil⟩
  | cons x xs ih =>
    rcases h x List.mem_cons_self with ⟨y, hy⟩
    rcases ih fun z hz => h z (List.mem_cons_of_mem x hz) with ⟨ys, hys⟩
    exact ⟨y :: ys, .cons hy hys⟩

/-- Every result of a traversal is the result of an element. -/
theorem exists_of_mapM_eq_ok {f : α → Except ε β} {xs : List α} {ys : List β}
    (h : xs.mapM f = .ok ys) {y : β} (hy : y ∈ ys) : ∃ x ∈ xs, f x = .ok y :=
  exists_right_of_forall₂ (mapM_eq_ok_iff.1 h).flip hy

/-- The error of a traversal is the error of an element. -/
theorem exists_of_mapM_eq_error {f : α → Except ε β} {xs : List α} {e : ε}
    (h : xs.mapM f = .error e) : ∃ x ∈ xs, f x = .error e := by
  induction xs with
  | nil => cases h
  | cons x rest ih =>
    rw [List.mapM_cons] at h
    rcases bind_eq_error_iff.1 h with hhead | ⟨y, -, h⟩
    · exact ⟨x, List.mem_cons_self, hhead⟩
    · rcases bind_eq_error_iff.1 h with hrest | ⟨ys, -, h⟩
      · rcases ih hrest with ⟨x', hx', herror⟩
        exact ⟨x', List.mem_cons_of_mem x hx', herror⟩
      · cases h

theorem mapM_congr {f g : α → Except ε β} {xs : List α} (h : ∀ x ∈ xs, f x = g x) :
    xs.mapM f = xs.mapM g := by
  induction xs with
  | nil => rfl
  | cons x rest ih =>
    rw [List.mapM_cons, List.mapM_cons, h x List.mem_cons_self,
      ih fun y hy => h y (List.mem_cons_of_mem x hy)]

/-- If both elements of every pair are related to some third one, there is a list of these. -/
theorem exists_forall₂_between {γ : Type} {S : α → γ → Prop} {R : β → γ → Prop} {xs : List α}
    {ys : List β} (h : List.Forall₂ (fun x y => ∃ z, S x z ∧ R y z) xs ys) :
    ∃ zs, List.Forall₂ S xs zs ∧ List.Forall₂ R ys zs := by
  induction h with
  | nil => exact ⟨[], .nil, .nil⟩
  | cons hhead _ ih =>
    rcases hhead with ⟨z, hz, hrel⟩
    rcases ih with ⟨zs, hzs, hall⟩
    exact ⟨z :: zs, .cons hz hzs, .cons hrel hall⟩

/-- If every element has a result that is related to its partner, so has the traversal. -/
theorem exists_mapM_eq_ok {γ : Type} {f : α → Except ε γ} {R : β → γ → Prop} {xs : List α}
    {ys : List β} (h : List.Forall₂ (fun x y => ∃ z, f x = .ok z ∧ R y z) xs ys) :
    ∃ zs, xs.mapM f = .ok zs ∧ List.Forall₂ R ys zs := by
  rcases exists_forall₂_between h with ⟨zs, hzs, hall⟩
  exact ⟨zs, mapM_eq_ok_iff.2 hzs, hall⟩

theorem length_of_mapM_eq_ok {f : α → Except ε β} {xs : List α} {ys : List β}
    (h : xs.mapM f = .ok ys) : ys.length = xs.length :=
  (mapM_eq_ok_iff.1 h).length_eq.symm

theorem tryOfFn_apply {n : Nat} {f : Fin n → Except ε α} {xs : Vector α n}
    (h : tryOfFn f = .ok xs) (i : Fin n) : f i = .ok xs[i] :=
  tryOfFn_eq_ok h i.val i.isLt

/-- A vector of results is found exactly if each of them is. -/
theorem tryOfFn_eq_ok_iff {n : Nat} {f : Fin n → Except ε α} {xs : Vector α n} :
    tryOfFn f = .ok xs ↔ ∀ i : Fin n, f i = .ok xs[i] := by
  constructor
  · exact tryOfFn_apply
  · intro h
    rw [tryOfFn_of_forall h]
    refine congrArg Except.ok ?_
    ext i hi
    simp

theorem exists_of_tryOfFn_eq_error {n : Nat} {f : Fin n → Except ε α} {e : ε}
    (h : tryOfFn f = .error e) : ∃ i, f i = .error e := by
  induction n with
  | zero => cases h
  | succ n ih =>
    unfold tryOfFn at h
    rcases hfront : tryOfFn fun i : Fin n => f i.castSucc with e' | front
    · rw [hfront] at h
      cases h
      rcases ih hfront with ⟨i, hi⟩
      exact ⟨i.castSucc, hi⟩
    · rw [hfront] at h
      rcases hlast : f (Fin.last n) with e' | last
      · rw [hlast] at h
        cases h
        exact ⟨Fin.last n, hlast⟩
      · rw [hlast] at h
        cases h

/-! ## Computations with one result -/

/-- Both computations succeed with the same result. -/
def Agree (x y : Except ε α) : Prop :=
  ∃ a, x = .ok a ∧ y = .ok a

theorem Agree.pure (a : α) : Agree (.ok a : Except ε α) (.ok a) :=
  ⟨a, rfl, rfl⟩

theorem Agree.bind {x y : Except ε α} {f g : α → Except ε β} (h : Agree x y)
    (hfg : ∀ a, Agree (f a) (g a)) : Agree (x >>= f) (y >>= g) := by
  rcases h with ⟨a, rfl, rfl⟩
  exact hfg a

theorem agree_tryOfFn {n : Nat} {f g : Fin n → Except ε α} (h : ∀ i, Agree (f i) (g i)) :
    Agree (tryOfFn f) (tryOfFn g) := by
  choose a hf hg using h
  exact ⟨_, tryOfFn_of_forall hf, tryOfFn_of_forall hg⟩

theorem agree_mapM {γ : Type} {f : α → Except ε γ} {g : β → Except ε γ} {xs : List α} {ys : List β}
    (h : List.Forall₂ (fun x y => Agree (f x) (g y)) xs ys) : Agree (xs.mapM f) (ys.mapM g) := by
  induction h with
  | nil => exact .pure []
  | cons hhead _ ih =>
    rw [List.mapM_cons, List.mapM_cons]
    exact hhead.bind fun z => ih.bind fun zs => .pure (z :: zs)

/-! ## Computations with related results -/

/-- Both computations fail with the same error, or both succeed and the results are related. -/
inductive Parallel (R : α → β → Prop) : Except ε α → Except ε β → Prop
  | error (e : ε) : Parallel R (.error e) (.error e)
  | ok {a : α} {b : β} (h : R a b) : Parallel R (.ok a) (.ok b)

/-- What goes on in the same way from related results ends in the same way. -/
theorem Parallel.bind_eq {R : α → β → Prop} {γ : Type} {x : Except ε α} {y : Except ε β}
    {f : α → Except ε γ} {g : β → Except ε γ} (h : Parallel R x y)
    (hfg : ∀ a b, R a b → f a = g b) : x >>= f = y >>= g := by
  cases h with
  | error e => rfl
  | ok h => exact hfg _ _ h

theorem Parallel.bind {R : α → β → Prop} {γ δ : Type} {S : γ → δ → Prop} {x : Except ε α}
    {y : Except ε β} {f : α → Except ε γ} {g : β → Except ε δ} (h : Parallel R x y)
    (hfg : ∀ a b, R a b → Parallel S (f a) (g b)) : Parallel S (x >>= f) (y >>= g) := by
  cases h with
  | error e => exact .error e
  | ok h => exact hfg _ _ h

/-! ## Why a computation fails -/

/-- Whenever the computation fails, its error is one of these. -/
def FailsOnly (P : ε → Prop) (x : Except ε α) : Prop :=
  ∀ e, x = .error e → P e

namespace FailsOnly

variable {P Q : ε → Prop}

theorem of_ok (a : α) : FailsOnly P (.ok a : Except ε α) := by
  intro e h
  cases h

theorem of_error {e : ε} (h : P e) : FailsOnly P (.error e : Except ε α) := by
  intro e' h'
  cases h'
  exact h

theorem imp {x : Except ε α} (h : FailsOnly P x) (hPQ : ∀ e, P e → Q e) : FailsOnly Q x :=
  fun e he => hPQ e (h e he)

theorem bind {x : Except ε α} {f : α → Except ε β} (h : FailsOnly P x)
    (hf : ∀ a, x = .ok a → FailsOnly P (f a)) : FailsOnly P (x >>= f) := by
  intro e he
  rcases bind_eq_error_iff.1 he with hx | ⟨a, ha, hfa⟩
  · exact h e hx
  · exact hf a ha e hfa

theorem map {x : Except ε α} (h : FailsOnly P x) (f : α → β) : FailsOnly P (f <$> x) := by
  rcases x with e | a
  · exact .of_error (h e rfl)
  · exact .of_ok (f a)

theorem mapM {f : α → Except ε β} {xs : List α} (h : ∀ x ∈ xs, FailsOnly P (f x)) :
    FailsOnly P (xs.mapM f) := by
  intro e he
  rcases exists_of_mapM_eq_error he with ⟨x, hx, hfx⟩
  exact h x hx e hfx

theorem tryOfFn {n : Nat} {f : Fin n → Except ε α} (h : ∀ i, FailsOnly P (f i)) :
    FailsOnly P (tryOfFn f) := by
  intro e he
  rcases exists_of_tryOfFn_eq_error he with ⟨i, hi⟩
  exact h i e hi

end FailsOnly

end EventModel
