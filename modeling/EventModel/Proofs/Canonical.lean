import Mathlib.Data.List.Sort
import EventModel.Proofs.Stream
import EventModel.Proofs.Wire.Utf8

/-!
# Parameters in hash maps

The parameters of a kind may as well be kept in a hash map, which lists its entries in any order. What
is read from the maps after a sequence of calls are the sorted parameters of the model
(`ParameterMaps.Reached.entries_eq`), so that it depends on what each key of each kind was last
written with and on nothing else. The same holds for the bytes of a frame with these parameters.
-/

namespace EventModel

open Wire

/-! ## Calls -/

/-- A call that stores parameters. -/
inductive ParameterCall
  | single (k : ParameterKind) (key : String) (value : k.Value)
  | list (k : ParameterKind) (key : String) (values : List k.Value)

namespace ParameterCall

def kind : ParameterCall → ParameterKind
  | single k _ _ => k
  | list k _ _ => k

def key : ParameterCall → String
  | single _ key _ => key
  | list _ key _ => key

/-- The values that are stored. A single value is stored as a list of one. -/
def values : (call : ParameterCall) → List call.kind.Value
  | single _ _ value => [value]
  | list _ _ values => values

/-- What a call writes under a key of a kind. -/
def writes? (call : ParameterCall) (k : ParameterKind) (key : String) : Option (List k.Value) :=
  if h : call.kind = k ∧ call.key = key then some (h.1 ▸ call.values) else none

end ParameterCall

/-- What the calls last wrote under a key of a kind. -/
def lastWritten (calls : List ParameterCall) (k : ParameterKind) (key : String) :
    Option (List k.Value) :=
  calls.reverse.findSome? fun call => call.writes? k key

/-- The parameters after calls on an empty store. -/
def Parameters.ofCalls (calls : List ParameterCall) : Parameters :=
  calls.foldl (fun p call => p.set call.kind call.key call.values) .empty

/-! ## Sorted entries as tables -/

namespace ParameterEntries

variable {α : Type} {entries entries' : List (String × List α)}

theorem lookup_cons_eq_ite (other : String) (old : List α) (rest : List (String × List α))
    (key : String) :
    ((other, old) :: rest).lookup key = if key = other then some old else rest.lookup key := by
  rw [List.lookup_cons]
  by_cases hsame : key = other
  · rw [beq_iff_eq.2 hsame, if_pos hsame]
  · rw [beq_eq_false_iff_ne.2 hsame, if_neg hsame]

/-- After values are stored their key holds them, and every other key holds what it held. -/
theorem lookup_insert (key : String) (values : List α) (entries : List (String × List α))
    (asked : String) :
    (insert key values entries).lookup asked =
      if asked = key then some values else entries.lookup asked := by
  induction entries with
  | nil => exact lookup_cons_eq_ite _ _ _ _
  | cons head rest ih =>
    rcases head with ⟨other, old⟩
    unfold insert
    split
    case isTrue => exact lookup_cons_eq_ite _ _ _ _
    case isFalse =>
      split
      case isTrue hsame =>
        subst hsame
        rw [lookup_cons_eq_ite, lookup_cons_eq_ite]
        split <;> rfl
      case isFalse hother =>
        rw [lookup_cons_eq_ite, lookup_cons_eq_ite, ih]
        by_cases hasked : asked = key
        · rw [if_neg fun h => hother (h.symm.trans hasked), if_pos hasked, if_pos hasked]
        · rw [if_neg hasked, if_neg hasked]

/-- Each key of sorted entries is there once. -/
theorem IsSorted.mem_iff_lookup (hsorted : IsSorted entries) {key : String} {values : List α} :
    (key, values) ∈ entries ↔ entries.lookup key = some values := by
  refine ⟨fun hmem => ?_, mem_of_lookup_eq_some⟩
  rcases List.append_of_mem hmem with ⟨front, rest, rfl⟩
  refine List.lookup_eq_some_iff.2 ⟨front, rest, rfl, fun entry hentry => ?_⟩
  have hlt : entry.1 < key :=
    (List.pairwise_append.1 hsorted).2.2 entry hentry (key, values) List.mem_cons_self
  exact bne_iff_ne.2 hlt.ne'

theorem IsSorted.nodup (hsorted : IsSorted entries) : entries.Nodup :=
  hsorted.imp fun hlt => ne_of_apply_ne Prod.fst hlt.ne

/-- Sorted entries that hold the same values under each key are the same. -/
theorem IsSorted.ext_lookup (hsorted : IsSorted entries) (hsorted' : IsSorted entries')
    (h : ∀ key, entries.lookup key = entries'.lookup key) : entries = entries' := by
  have hperm : entries.Perm entries' := by
    refine (List.perm_ext_iff_of_nodup hsorted.nodup hsorted'.nodup).2 fun entry => ?_
    rw [hsorted.mem_iff_lookup, hsorted'.mem_iff_lookup, h]
  exact hperm.eq_of_pairwise (fun a b _ _ hab hba => absurd hab hba.asymm) hsorted hsorted'

/-- Stored values replace those that are under the same key. -/
theorem IsSorted.insert_perm (hsorted : IsSorted entries) (key : String) (values : List α) :
    (ParameterEntries.insert key values entries).Perm ((key, values) :: entries.filter (·.1 ≠ key)) := by
  induction entries with
  | nil => exact .refl _
  | cons head rest ih =>
    rcases head with ⟨other, old⟩
    have hhead : ∀ entry ∈ rest, other < entry.1 := (List.pairwise_cons.1 hsorted).1
    have hrest : IsSorted rest := (List.pairwise_cons.1 hsorted).2
    -- what is above the key stays
    have hkeep : ∀ l : List (String × List α), (∀ entry ∈ l, key < entry.1) →
        l.filter (·.1 ≠ key) = l := fun l hl =>
      List.filter_eq_self.2 fun entry hentry => decide_eq_true (hl entry hentry).ne'
    unfold ParameterEntries.insert
    split
    case isTrue hfront =>
      rw [hkeep]
      intro entry hentry
      rcases List.mem_cons.1 hentry with heq | hmem
      · exact heq ▸ hfront
      · exact hfront.trans (hhead entry hmem)
    case isFalse =>
      split
      case isTrue hsame =>
        rw [List.filter_cons_of_neg (by simpa using hsame),
          hkeep rest fun entry hentry => hsame ▸ hhead entry hentry]
      case isFalse hother =>
        rw [List.filter_cons_of_pos (by simpa using hother)]
        exact ((ih hrest).cons _).trans (.swap _ _ _)

end ParameterEntries

/-! ## What the calls leave -/

theorem lastWritten_append (calls : List ParameterCall) (call : ParameterCall) (k : ParameterKind)
    (key : String) :
    lastWritten (calls ++ [call]) k key = (call.writes? k key).or (lastWritten calls k key) := by
  unfold lastWritten
  rw [List.reverse_append, List.reverse_singleton, List.singleton_append, List.findSome?_cons]
  cases call.writes? k key <;> rfl

namespace Parameters

theorem ofCalls_append (calls : List ParameterCall) (call : ParameterCall) :
    ofCalls (calls ++ [call]) = (ofCalls calls).set call.kind call.key call.values := by
  unfold ofCalls
  rw [List.foldl_append]
  rfl

theorem isSorted_ofCalls (calls : List ParameterCall) : (ofCalls calls).IsSorted := by
  induction calls using List.reverseRecOn with
  | nil => exact isSorted_empty
  | append_singleton calls call ih =>
    rw [ofCalls_append]
    exact ih.set _ _ _

theorem get?_set (p : Parameters) (call : ParameterCall) (k : ParameterKind) (key : String) :
    (p.set call.kind call.key call.values).get? k key = (call.writes? k key).or (p.get? k key) := by
  unfold get? ParameterCall.writes?
  by_cases hkind : call.kind = k
  · subst hkind
    rw [entries_set_self, ParameterEntries.lookup_insert]
    by_cases hkey : call.key = key
    · rw [if_pos hkey.symm, dif_pos ⟨rfl, hkey⟩]
      rfl
    · rw [if_neg (Ne.symm hkey), dif_neg fun h => hkey h.2]
      rfl
  · rw [entries_set_of_ne p (Ne.symm hkind), dif_neg fun h => hkind h.1]
    rfl

/-- A key holds what was last written under it. -/
theorem get?_ofCalls (calls : List ParameterCall) (k : ParameterKind) (key : String) :
    (ofCalls calls).get? k key = lastWritten calls k key := by
  induction calls using List.reverseRecOn with
  | nil => cases k <;> rfl
  | append_singleton calls call ih => rw [ofCalls_append, get?_set, lastWritten_append, ih]

/-- The entries of a kind are determined by what was last written under the keys of this kind. -/
theorem entries_ofCalls_congr {calls calls' : List ParameterCall} {k : ParameterKind}
    (h : ∀ key, lastWritten calls k key = lastWritten calls' k key) :
    (ofCalls calls).entries k = (ofCalls calls').entries k := by
  refine (isSorted_ofCalls calls k).ext_lookup (isSorted_ofCalls calls' k) fun key => ?_
  have hget := get?_ofCalls calls k key
  rw [h, ← get?_ofCalls calls' k key] at hget
  exact hget

end Parameters

/-! ## Hash maps -/

/-- Hash maps with parameters, one for each kind, as the lists of entries that going through them
gives. -/
abbrev ParameterMaps :=
  (k : ParameterKind) → List (String × List k.Value)

namespace ParameterMaps

/-- A call puts its values under its key, in the place of what was there. Maps list their entries in
any order, and a call may change the order. -/
structure Puts (m : ParameterMaps) (call : ParameterCall) (m' : ParameterMaps) : Prop where
  own : (m' call.kind).Perm ((call.key, call.values) :: (m call.kind).filter (·.1 ≠ call.key))
  others : ∀ k, k ≠ call.kind → (m' k).Perm (m k)

/-- The maps that calls may lead to from empty maps. -/
inductive Reached : List ParameterCall → ParameterMaps → Prop
  | empty : Reached [] fun _ => []
  | put {calls : List ParameterCall} {m m' : ParameterMaps} {call : ParameterCall} :
    Reached calls m → m.Puts call m' → Reached (calls ++ [call]) m'

/-- The order of keys: that of their bytes. -/
def keyLe (a b : String) : Bool :=
  decide (utf8 a ≤ utf8 b)

/-- The entries of a kind, sorted by their keys. -/
def entries (m : ParameterMaps) (k : ParameterKind) : ParameterEntries k :=
  (m k).mergeSort fun a b => keyLe a.1 b.1

/-- The keys of a kind, sorted. -/
def keys (m : ParameterMaps) (k : ParameterKind) : List String :=
  ((m k).map (·.1)).mergeSort keyLe

/-- The parameters that are read from the maps. -/
def parameters (m : ParameterMaps) : Parameters where
  ints := m.entries .int
  floats := m.entries .float
  doubles := m.entries .double
  strings := m.entries .string

theorem entries_parameters (m : ParameterMaps) (k : ParameterKind) :
    m.parameters.entries k = m.entries k := by
  cases k <;> rfl

theorem keyLe_iff {a b : String} : keyLe a b = true ↔ a ≤ b := by
  rw [keyLe, decide_eq_true_iff, ← not_lt, ← utf8_lt_utf8_iff, List.not_lt]

theorem keyLe_trans (a b c : String) (hab : keyLe a b = true) (hbc : keyLe b c = true) :
    keyLe a c = true :=
  keyLe_iff.2 ((keyLe_iff.1 hab).trans (keyLe_iff.1 hbc))

theorem keyLe_total (a b : String) : (keyLe a b || keyLe b a) = true := by
  rw [Bool.or_eq_true, keyLe_iff, keyLe_iff]
  exact le_total a b

theorem keyLe_antisymm {a b : String} (hab : keyLe a b = true) (hba : keyLe b a = true) : a = b :=
  le_antisymm (keyLe_iff.1 hab) (keyLe_iff.1 hba)

variable {calls : List ParameterCall} {m m' : ParameterMaps}

theorem Puts.perm {p : Parameters} {call : ParameterCall} (hput : m.Puts call m')
    (hsorted : p.IsSorted) (h : ∀ k, (m k).Perm (p.entries k)) (k : ParameterKind) :
    (m' k).Perm ((p.set call.kind call.key call.values).entries k) := by
  by_cases hkind : k = call.kind
  · subst hkind
    rw [Parameters.entries_set_self]
    have hinsert := (hsorted call.kind).insert_perm call.key call.values
    exact hput.own.trans ((((h _).filter _).cons _).trans hinsert.symm)
  · rw [Parameters.entries_set_of_ne p hkind]
    exact (hput.others k hkind).trans (h k)

/-- Maps hold the entries of the sorted parameters, in some order. -/
theorem Reached.perm (h : Reached calls m) (k : ParameterKind) :
    (m k).Perm ((Parameters.ofCalls calls).entries k) := by
  induction h generalizing k with
  | empty => cases k <;> exact .nil
  | put _ hput ih =>
    rw [Parameters.ofCalls_append]
    exact hput.perm (Parameters.isSorted_ofCalls _) ih k

/-- What is read from the maps are the sorted parameters. -/
theorem Reached.entries_eq (h : Reached calls m) (k : ParameterKind) :
    m.entries k = (Parameters.ofCalls calls).entries k := by
  have hsorted := Parameters.isSorted_ofCalls calls k
  have hperm : (m.entries k).Perm ((Parameters.ofCalls calls).entries k) :=
    (List.mergeSort_perm _ _).trans (h.perm k)
  have hread : (m.entries k).Pairwise fun a b => keyLe a.1 b.1 = true :=
    List.pairwise_mergeSort (fun a b c => keyLe_trans a.1 b.1 c.1)
      (fun a b => keyLe_total a.1 b.1) _
  have hstored : ((Parameters.ofCalls calls).entries k).Pairwise fun a b => keyLe a.1 b.1 = true :=
    hsorted.imp fun hlt => keyLe_iff.2 hlt.le
  refine hperm.eq_of_pairwise (fun a b ha hb hab hba => ?_) hread hstored
  -- entries with the same key are the same
  have hkey : a.1 = b.1 := keyLe_antisymm hab hba
  have hfirst := hsorted.mem_iff_lookup.1 (hperm.subset ha)
  have hsecond := hsorted.mem_iff_lookup.1 hb
  rw [hkey, hsecond] at hfirst
  exact Prod.ext hkey (Option.some.inj hfirst).symm

/-- The keys are those of the entries. -/
theorem keys_eq (m : ParameterMaps) (k : ParameterKind) :
    m.keys k = (m.entries k).map (·.1) := by
  have hperm : (m.keys k).Perm ((m.entries k).map (·.1)) :=
    (List.mergeSort_perm _ _).trans ((List.mergeSort_perm _ _).symm.map _)
  have hread : (m.keys k).Pairwise fun a b => keyLe a b = true :=
    List.pairwise_mergeSort keyLe_trans keyLe_total _
  refine hperm.eq_of_pairwise (fun a b _ _ => keyLe_antisymm) hread (List.pairwise_map.2 ?_)
  exact List.pairwise_mergeSort (fun a b c => keyLe_trans a.1 b.1 c.1)
    (fun a b => keyLe_total a.1 b.1) _

/-- The maps that calls may lead to are those with the entries of the sorted parameters, in any
order. -/
theorem reached_iff :
    Reached calls m ↔ ∀ k, (m k).Perm ((Parameters.ofCalls calls).entries k) := by
  refine ⟨fun h k => h.perm k, fun h => ?_⟩
  induction calls using List.reverseRecOn generalizing m with
  | nil =>
    have hempty : m = fun _ => [] := funext fun k => List.perm_nil.1 (by cases k <;> exact h _)
    exact hempty ▸ .empty
  | append_singleton calls call ih =>
    have hsorted := Parameters.isSorted_ofCalls calls call.kind
    simp only [Parameters.ofCalls_append] at h
    refine .put (ih fun k => .refl ((Parameters.ofCalls calls).entries k)) ⟨?_, fun k hkind => ?_⟩
    · refine (h call.kind).trans ?_
      rw [Parameters.entries_set_self]
      exact hsorted.insert_perm call.key call.values
    · have hother := h k
      rwa [Parameters.entries_set_of_ne _ hkind] at hother

theorem Reached.parameters_eq (h : Reached calls m) :
    m.parameters = Parameters.ofCalls calls :=
  Parameters.ext_entries fun k => (entries_parameters m k).trans (h.entries_eq k)

theorem Reached.lookup_entries (h : Reached calls m) (k : ParameterKind) (key : String) :
    (m.entries k).lookup key = lastWritten calls k key := by
  rw [h.entries_eq]
  exact Parameters.get?_ofCalls calls k key

theorem Reached.pairwise_utf8 (h : Reached calls m) (k : ParameterKind) :
    (m.entries k).Pairwise fun a b => utf8 a.1 < utf8 b.1 := by
  rw [h.entries_eq]
  exact (Parameters.isSorted_ofCalls calls k).imp fun hlt => utf8_lt_utf8_iff.2 hlt

/-- Calls that last wrote the same under the keys of a kind leave the same entries of this kind. -/
theorem Reached.entries_congr {calls' : List ParameterCall} (h : Reached calls m)
    (h' : Reached calls' m') {k : ParameterKind}
    (hlast : ∀ key, lastWritten calls k key = lastWritten calls' k key) :
    m.entries k = m'.entries k := by
  rw [h.entries_eq, h'.entries_eq, Parameters.entries_ofCalls_congr hlast]

theorem Reached.storable (h : Reached calls m) {d : FrameData} (hbuilt : d.ids.Built)
    (hfits : (FrameBody.ofData { d with parameters := m.parameters }).Fits) :
    FrameData.Storable { d with parameters := m.parameters } where
  built := hbuilt
  sorted := h.parameters_eq ▸ Parameters.isSorted_ofCalls calls
  fits := hfits

/-- The form of parameters is canonical. Whatever order the maps list their entries in, what is read
from them are the parameters of the model: one entry for each key that was written, with the values
that were last written under it, and ascending by the bytes of the keys. So two sequences of calls
that last wrote the same under the keys of a kind leave the same entries of this kind, whatever they
wrote under the keys of other kinds; and if they last wrote the same under all keys, frames that
differ in nothing else have the same stream. The parameters are read back from it, bit for bit but
for signalling NaNs of single precision, which become quiet. -/
theorem parameters_canonical {calls' : List ParameterCall} (h : Reached calls m)
    (h' : Reached calls' m') :
    (m.parameters = Parameters.ofCalls calls ∧
      ∀ k, m.parameters.entries k = m.entries k ∧ m.keys k = (m.entries k).map (·.1) ∧
        ((m.entries k).Pairwise fun a b => utf8 a.1 < utf8 b.1) ∧
        ∀ key, (m.entries k).lookup key = lastWritten calls k key) ∧
      (∀ k, (∀ key, lastWritten calls k key = lastWritten calls' k key) →
        m.entries k = m'.entries k ∧ m.keys k = m'.keys k) ∧
      ((∀ k key, lastWritten calls k key = lastWritten calls' k key) →
        ∀ config (d : FrameData),
          Stream.encode config { d with parameters := m.parameters } =
            Stream.encode config { d with parameters := m'.parameters }) ∧
      ∀ config (d : FrameData), d.ids.Built →
        (FrameBody.ofData { d with parameters := m.parameters }).Fits →
          ∃ p : Parameters,
            Stream.decode config (Stream.encode config { d with parameters := m.parameters }) =
                .ok { d with parameters := p } ∧
              (∀ k, k ≠ .float → p.entries k = m.entries k) ∧
              p.floats = (m.entries .float).map (fun entry =>
                (entry.1, entry.2.map Binary32.quiet)) ∧
              (m.parameters.IsQuiet → p = m.parameters) := by
  refine ⟨⟨h.parameters_eq, fun k => ?_⟩, fun k hlast => ?_, fun hlast config d => ?_, ?_⟩
  · exact ⟨entries_parameters m k, keys_eq m k, h.pairwise_utf8 k, h.lookup_entries k⟩
  · have hentries := h.entries_congr h' hlast
    exact ⟨hentries, by rw [keys_eq, keys_eq, hentries]⟩
  · have hsame : m.parameters = m'.parameters := Parameters.ext_entries fun k => by
      rw [entries_parameters, entries_parameters, h.entries_congr h' (hlast k)]
    rw [hsame]
  · intro config d hbuilt hfits
    have hread := Stream.read_encode_append config (h.storable hbuilt hfits) []
    rw [List.append_nil] at hread
    refine ⟨m.parameters.quiet, ?_, fun k hkind => ?_, rfl, Parameters.quiet_eq_self⟩
    · rw [Stream.decode, hread]
      rfl
    · cases k with
      | float => exact absurd rfl hkind
      | _ => rfl

/-- Calls that write one key twice, and the same key for two kinds. -/
def repeatedCalls : List ParameterCall :=
  [.list .int "run" [1, 2], .single .float "run" ⟨0x3f800000⟩, .single .int "event" 3,
    .single .int "run" 7]

/-- Calls that leave the same, in another order. -/
def directCalls : List ParameterCall :=
  [.single .int "run" 7, .list .int "event" [3], .list .float "run" [⟨0x3f800000⟩]]

/-- Maps that list their entries in ascending order of the keys, and in descending order. -/
def ascendingMaps : ParameterMaps
  | .int => [("event", [3]), ("run", [7])]
  | .float => [("run", [⟨0x3f800000⟩])]
  | .double => []
  | .string => []

def descendingMaps : ParameterMaps
  | .int => [("run", [7]), ("event", [3])]
  | .float => [("run", [⟨0x3f800000⟩])]
  | .double => []
  | .string => []

theorem parameters_canonical_repeatedCalls :
    Reached repeatedCalls descendingMaps ∧ Reached directCalls ascendingMaps ∧
      descendingMaps.entries .int = ascendingMaps.entries .int ∧
      descendingMaps.keys .int = ["event", "run"] ∧
      (descendingMaps.entries .float).lookup "run" = some [⟨0x3f800000⟩] ∧
      Stream.encode {} { Stream.hitFrame with parameters := descendingMaps.parameters } =
        Stream.encode {} { Stream.hitFrame with parameters := ascendingMaps.parameters } ∧
      Stream.decode {}
          (Stream.encode {} { Stream.hitFrame with parameters := descendingMaps.parameters }) =
        .ok { Stream.hitFrame with parameters := descendingMaps.parameters } := by
  have hrepeated : Reached repeatedCalls descendingMaps :=
    reached_iff.2 fun k => by cases k <;> decide +kernel
  have hdirect : Reached directCalls ascendingMaps :=
    reached_iff.2 fun k => by cases k <;> decide +kernel
  have hlast : ∀ k key, lastWritten repeatedCalls k key = lastWritten directCalls k key := by
    intro k key
    have hsame : Parameters.ofCalls repeatedCalls = Parameters.ofCalls directCalls := by
      decide +kernel
    rw [← Parameters.get?_ofCalls, hsame, Parameters.get?_ofCalls]
  rcases parameters_canonical hrepeated hdirect with ⟨⟨hstored, hkind⟩, hentries, hencode, hdecode⟩
  rcases hdecode {} Stream.hitFrame Stream.storable_hitFrame.built (hstored ▸ by decide +kernel)
    with ⟨p, hread, -, -, hquiet⟩
  refine ⟨hrepeated, hdirect, (hentries .int (hlast .int)).1, ?_, ?_, hencode hlast {} _, ?_⟩
  · rw [(hkind .int).2.1, ← (hkind .int).1, hstored]
    decide +kernel
  · rw [(hkind .float).2.2.2]
    decide +kernel
  · rw [hread, hquiet (hstored ▸ by decide +kernel)]

end ParameterMaps

end EventModel
