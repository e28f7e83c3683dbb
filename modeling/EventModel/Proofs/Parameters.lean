import Mathlib.Data.String.Basic
import EventModel.Parameters

/-!
# Sorted parameters

The entries of each kind ascend strictly by their keys. Storing values keeps this order, and storing
sorted entries one after the other into an empty store gives them back unchanged.
-/

namespace EventModel

namespace ParameterEntries

variable {α : Type}

/-- The keys ascend strictly. -/
def IsSorted (entries : List (String × List α)) : Prop :=
  entries.Pairwise fun a b => a.1 < b.1

theorem isSorted_nil : IsSorted ([] : List (String × List α)) :=
  List.Pairwise.nil

theorem mem_insert {key : String} {values : List α} {entries : List (String × List α)}
    {entry : String × List α} (h : entry ∈ insert key values entries) :
    entry = (key, values) ∨ entry ∈ entries := by
  induction entries with
  | nil => exact .inl (List.mem_singleton.1 h)
  | cons head rest ih =>
    rcases head with ⟨other, old⟩
    unfold insert at h
    split at h
    case isTrue => exact List.mem_cons.1 h
    case isFalse =>
      split at h
      case isTrue =>
        rcases List.mem_cons.1 h with hnew | hrest
        · exact .inl hnew
        · exact .inr (List.mem_cons_of_mem _ hrest)
      case isFalse =>
        rcases List.mem_cons.1 h with hhead | hrest
        · exact .inr (hhead ▸ List.mem_cons_self)
        · exact (ih hrest).imp id fun hold => List.mem_cons_of_mem _ hold

/-- Values are stored in the place of their key. -/
theorem IsSorted.insert {entries : List (String × List α)} (hsorted : IsSorted entries)
    (key : String) (values : List α) : IsSorted (insert key values entries) := by
  induction entries with
  | nil => exact List.pairwise_singleton _ _
  | cons head rest ih =>
    rcases head with ⟨other, old⟩
    have hhead : ∀ entry ∈ rest, other < entry.1 := (List.pairwise_cons.1 hsorted).1
    have hrest : IsSorted rest := (List.pairwise_cons.1 hsorted).2
    unfold ParameterEntries.insert
    split
    case isTrue hfront =>
      refine List.pairwise_cons.2 ⟨?_, hsorted⟩
      intro entry hentry
      rcases List.mem_cons.1 hentry with heq | hmem
      · rw [heq]
        exact hfront
      · exact hfront.trans (hhead entry hmem)
    case isFalse hback =>
      split
      -- the key is there already and gets new values
      case isTrue hsame =>
        refine List.pairwise_cons.2 ⟨?_, hrest⟩
        intro entry hentry
        have hlt := hhead entry hentry
        rwa [hsame] at hlt
      case isFalse hother =>
        have hlt : other < key := lt_of_le_of_ne (not_lt.1 hback) hother
        refine List.pairwise_cons.2 ⟨?_, ih hrest⟩
        intro entry hentry
        rcases mem_insert hentry with hnew | hold
        · rw [hnew]
          exact hlt
        · exact hhead entry hold

/-- A key above all others goes to the end. -/
theorem insert_of_forall_lt {key : String} {entries : List (String × List α)}
    (habove : ∀ entry ∈ entries, entry.1 < key) (values : List α) :
    insert key values entries = entries ++ [(key, values)] := by
  induction entries with
  | nil => rfl
  | cons head rest ih =>
    rcases head with ⟨other, old⟩
    have hhead : other < key := habove (other, old) List.mem_cons_self
    have hrest : ∀ entry ∈ rest, entry.1 < key := fun entry h =>
      habove entry (List.mem_cons_of_mem _ h)
    unfold insert
    rw [if_neg (not_lt.2 hhead.le), if_neg hhead.ne, ih hrest, List.cons_append]

/-- The entries that result from storing entries one after the other. -/
def insertEach (entries front : List (String × List α)) : List (String × List α) :=
  entries.foldl (fun stored entry => insert entry.1 entry.2 stored) front

theorem IsSorted.insertEach {front : List (String × List α)} (hfront : IsSorted front)
    (entries : List (String × List α)) : IsSorted (insertEach entries front) := by
  induction entries generalizing front with
  | nil => exact hfront
  | cons entry rest ih => exact ih (hfront.insert entry.1 entry.2)

theorem mem_insertEach {entries front : List (String × List α)} {entry : String × List α}
    (h : entry ∈ insertEach entries front) : entry ∈ entries ∨ entry ∈ front := by
  induction entries generalizing front with
  | nil => exact .inr h
  | cons head rest ih =>
    rcases ih h with hrest | hstored
    · exact .inl (List.mem_cons_of_mem _ hrest)
    · rcases mem_insert hstored with heq | hold
      · exact .inl (heq ▸ List.mem_cons_self)
      · exact .inr hold

theorem length_insert_le (key : String) (values : List α) (entries : List (String × List α)) :
    (insert key values entries).length ≤ entries.length + 1 := by
  induction entries with
  | nil => exact Nat.le_refl 1
  | cons head rest ih =>
    rcases head with ⟨other, old⟩
    unfold insert
    split
    case isTrue => exact Nat.le_refl _
    case isFalse =>
      split
      case isTrue => exact Nat.le_succ _
      case isFalse => exact Nat.succ_le_succ ih

theorem length_insertEach_le (entries front : List (String × List α)) :
    (insertEach entries front).length ≤ front.length + entries.length := by
  induction entries generalizing front with
  | nil => exact Nat.le_refl _
  | cons head rest ih =>
    have hstep := length_insert_le head.1 head.2 front
    calc
      (insertEach rest (insert head.1 head.2 front)).length
        ≤ (insert head.1 head.2 front).length + rest.length := ih _
      _ ≤ front.length + 1 + rest.length := Nat.add_le_add_right hstep _
      _ = front.length + (head :: rest).length := by simp; omega

/-- Sorted entries that continue what is stored are appended to it. -/
theorem insertEach_of_isSorted {front entries : List (String × List α)}
    (hsorted : IsSorted (front ++ entries)) : insertEach entries front = front ++ entries := by
  induction entries generalizing front with
  | nil => rw [List.append_nil]; rfl
  | cons entry rest ih =>
    -- what comes next is above all that is stored
    have habove : ∀ other ∈ front, other.1 < entry.1 := by
      intro other hother
      exact (List.pairwise_append.1 hsorted).2.2 other hother entry List.mem_cons_self
    have hstep : insert entry.1 entry.2 front = front ++ [entry] :=
      insert_of_forall_lt habove entry.2
    have hall : front ++ [entry] ++ rest = front ++ entry :: rest := by simp
    have hrest : insertEach rest (front ++ [entry]) = front ++ [entry] ++ rest :=
      ih (by rwa [hall])
    rw [hall] at hrest
    change insertEach rest (insert entry.1 entry.2 front) = _
    rw [hstep, hrest]

end ParameterEntries

namespace Parameters

/-- The entries of every kind are sorted. -/
def IsSorted (p : Parameters) : Prop :=
  ∀ k, ParameterEntries.IsSorted (p.entries k)

theorem isSorted_empty : empty.IsSorted := by
  intro k
  cases k <;> exact ParameterEntries.isSorted_nil

/-- Stores with the same entries are the same. -/
theorem ext_entries {p q : Parameters} (h : ∀ k, p.entries k = q.entries k) : p = q := by
  have hints : p.ints = q.ints := h .int
  have hfloats : p.floats = q.floats := h .float
  have hdoubles : p.doubles = q.doubles := h .double
  have hstrings : p.strings = q.strings := h .string
  cases p
  cases q
  simp_all

theorem entries_set_self (p : Parameters) (k : ParameterKind) (key : String)
    (values : List k.Value) :
    (p.set k key values).entries k = ParameterEntries.insert key values (p.entries k) := by
  cases k <;> rfl

theorem entries_set_of_ne (p : Parameters) {k other : ParameterKind} (hne : other ≠ k)
    (key : String) (values : List k.Value) :
    (p.set k key values).entries other = p.entries other := by
  cases k <;> cases other <;> first | rfl | exact absurd rfl hne

theorem IsSorted.set {p : Parameters} (hsorted : p.IsSorted) (k : ParameterKind) (key : String)
    (values : List k.Value) : (p.set k key values).IsSorted := by
  intro other
  by_cases hsame : other = k
  · rw [hsame, entries_set_self]
    exact (hsorted k).insert key values
  · rw [entries_set_of_ne p hsame]
    exact hsorted other

end Parameters

end EventModel
