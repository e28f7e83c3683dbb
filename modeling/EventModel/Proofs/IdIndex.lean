import EventModel.Proofs.Stream

/-!
# Id tables with an index

An `IndexedTable` is an id table with two hash maps, which lead from a name to its number and from a
number to the place of its pair. Both maps agree with the pairs whatever is taken up or added, so that
lookups through them answer as the table alone does (`IndexedTable.answersAsTable`), and tables with
the same pairs and the same next number are equal in every part (`IndexedTable.same_of_table_eq`).

A list of pairs is taken up exactly if names and numbers are distinct and the numbers are valid
(`IdTable.exists_ofPairs_iff`). A table is a bijection that its pairs determine, the next number
included (`IdTable.determined_by_pairs`).
-/

namespace EventModel

instance : Hashable CollectionId :=
  ⟨fun id => hash id.val⟩

namespace IdTable

variable {t : IdTable} {name : String} {id : CollectionId} {i : Nat}

/-! ## The place of a number -/

/-- The pair at the place `i` is the last one with the number `id`. -/
def IsLastPlace (t : IdTable) (id : CollectionId) (i : Nat) : Prop :=
  (∃ name, t.pairs[i]? = some (name, id)) ∧
    ∀ j pair, i < j → t.pairs[j]? = some pair → pair.2 ≠ id

theorem IsLastPlace.lt (h : t.IsLastPlace id i) : i < t.pairs.length := by
  rcases h.1 with ⟨name, hpair⟩
  exact (List.getElem?_eq_some_iff.1 hpair).1

section Append

variable (pairs : List (String × CollectionId)) (next next' : UInt32) (asked : CollectionId)

/-- A new pair has the last place of its number, and the other numbers keep theirs. -/
theorem isLastPlace_append_iff :
    IsLastPlace ⟨pairs ++ [(name, id)], next⟩ asked i ↔
      if id = asked then i = pairs.length else IsLastPlace ⟨pairs, next'⟩ asked i := by
  have hlast : (pairs ++ [(name, id)])[pairs.length]? = some (name, id) :=
    List.getElem?_concat_length
  have hold : ∀ j, j < pairs.length → (pairs ++ [(name, id)])[j]? = pairs[j]? := fun j hj =>
    List.getElem?_append_left hj
  have hle : ∀ j pair, (pairs ++ [(name, id)])[j]? = some pair → j ≤ pairs.length := by
    intro j pair hpair
    have hlt := (List.getElem?_eq_some_iff.1 hpair).1
    rw [List.length_append, List.length_singleton] at hlt
    omega
  split
  case isTrue heq =>
    subst heq
    constructor
    · rintro ⟨⟨other, hpair⟩, hlater⟩
      refine Nat.le_antisymm (hle i _ hpair) (Nat.le_of_not_lt fun hlt => ?_)
      exact hlater _ _ hlt hlast rfl
    · rintro rfl
      exact ⟨⟨name, hlast⟩, fun j pair hlt hpair =>
        absurd (hle j pair hpair) (Nat.not_le_of_lt hlt)⟩
  case isFalse hne =>
    -- the new pair has another number, so it is neither the place asked for nor in its way
    constructor
    · rintro ⟨⟨other, hpair⟩, hlater⟩
      have hlt : i < pairs.length := by
        refine Nat.lt_of_le_of_ne (hle i _ hpair) ?_
        rintro rfl
        cases hlast.symm.trans hpair
        exact hne rfl
      refine ⟨⟨other, (hold i hlt).symm.trans hpair⟩, fun j pair hij hj => hlater j pair hij ?_⟩
      exact (hold j (List.getElem?_eq_some_iff.1 hj).1).trans hj
    · intro h
      rcases h with ⟨⟨other, hpair⟩, hlater⟩
      have hlt : i < pairs.length := (List.getElem?_eq_some_iff.1 hpair).1
      refine ⟨⟨other, (hold i hlt).trans hpair⟩, fun j pair hij hj => ?_⟩
      rcases Nat.lt_or_eq_of_le (hle j pair hj) with hjlt | rfl
      · exact hlater j pair hij ((hold j hjlt).symm.trans hj)
      · cases hlast.symm.trans hj
        exact hne

theorem name?_append :
    name? ⟨pairs ++ [(name, id)], next⟩ asked =
      if id = asked then some name else name? ⟨pairs, next'⟩ asked := by
  unfold name?
  rw [List.reverse_append, List.reverse_singleton, List.singleton_append]
  by_cases heq : id = asked
  · rw [List.find?_cons_of_pos (by simpa using heq), if_pos heq]
    rfl
  · rw [List.find?_cons_of_neg (by simpa using heq), if_neg heq]

end Append

/-- The name of a number is the one at its last place. -/
theorem name?_eq_some_iff :
    t.name? id = some name ↔ ∃ i, t.IsLastPlace id i ∧ t.pairs[i]? = some (name, id) := by
  rcases t with ⟨pairs, next⟩
  induction pairs using List.reverseRecOn with
  | nil => simp [name?]
  | append_singleton pairs pair ih =>
    rcases pair with ⟨last, number⟩
    rw [name?_append pairs next next]
    simp only [isLastPlace_append_iff pairs next next]
    by_cases heq : number = id
    · simp [heq]
    · simp only [heq, if_false, ih]
      refine exists_congr fun i => and_congr_right fun hplace => ?_
      rw [List.getElem?_append_left hplace.lt]

theorem exists_isLastPlace_iff : (∃ i, t.IsLastPlace id i) ↔ ∃ name, t.name? id = some name := by
  constructor
  · rintro ⟨i, hplace⟩
    rcases hplace.1 with ⟨name, hpair⟩
    exact ⟨name, name?_eq_some_iff.2 ⟨i, hplace, hpair⟩⟩
  · rintro ⟨name, hname⟩
    rcases name?_eq_some_iff.1 hname with ⟨i, hplace, -⟩
    exact ⟨i, hplace⟩

end IdTable

/-! ## Tables with an index -/

/-- An id table with the number of each name and the place of each number. -/
structure IndexedTable where
  table : IdTable
  byName : Std.HashMap String CollectionId
  byId : Std.HashMap CollectionId Nat
  byName_eq : ∀ name, byName[name]? = table.id? name
  byId_iff : ∀ id i, byId[id]? = some i ↔ table.IsLastPlace id i

namespace IndexedTable

variable {x y : IndexedTable} {name : String} {id : CollectionId}

def empty : IndexedTable where
  table := .empty
  byName := ∅
  byId := ∅
  byName_eq name := by simp [IdTable.id?, IdTable.empty]
  byId_iff id i := by simp [IdTable.IsLastPlace, IdTable.empty]

/-- The table with one more pair, whose name is new, and another next number. -/
def push (x : IndexedTable) (name : String) (id : CollectionId) (next : UInt32)
    (hnew : x.byName[name]? = none) : IndexedTable where
  table := ⟨x.table.pairs ++ [(name, id)], next⟩
  byName := x.byName.insert name id
  byId := x.byId.insert id x.table.pairs.length
  byName_eq asked := by
    have hnone : x.table.pairs.lookup name = none := (x.byName_eq name).symm.trans hnew
    have hold : x.byName[asked]? = x.table.pairs.lookup asked := x.byName_eq asked
    rw [Std.HashMap.getElem?_insert, IdTable.id?, List.lookup_append, hold]
    by_cases heq : name = asked
    -- the name is new, so that no pair before it hides the one at the end
    · subst heq
      simp [hnone]
    · have hother : (asked == name) = false := beq_eq_false_iff_ne.2 (Ne.symm heq)
      simp [heq, List.lookup_cons, hother]
  byId_iff asked i := by
    rw [Std.HashMap.getElem?_insert, IdTable.isLastPlace_append_iff _ next x.table.next]
    by_cases heq : id = asked
    · simp [heq, eq_comm]
    · simp [heq, x.byId_iff]

/-- The number of a name. -/
def id? (x : IndexedTable) (name : String) : Option CollectionId :=
  x.byName[name]?

/-- The name at the place of a number. -/
def name? (x : IndexedTable) (id : CollectionId) : Option String :=
  x.byId[id]?.bind fun place => x.table.pairs[place]?.map (·.1)

/-- The number of `name`, which is registered if it is new. -/
def add (x : IndexedTable) (name : String) : Except Error (CollectionId × IndexedTable) :=
  match h : x.byName[name]? with
  | some id => .ok (id, x)
  | none => do
    let next ← IdTable.increment x.table.next
    return (⟨x.table.next⟩, x.push name ⟨x.table.next⟩ next h)

/-- Names are added one after the other. -/
def addAll (x : IndexedTable) : List String → Except Error (List CollectionId × IndexedTable)
  | [] => .ok ([], x)
  | name :: rest => do
    let (id, x') ← x.add name
    let (ids, x'') ← x'.addAll rest
    return (id :: ids, x'')

/-- Takes up one stored pair. -/
def insertPair (x : IndexedTable) (pair : String × CollectionId) : Except Error IndexedTable :=
  if !pair.2.isValid then
    .error (.corruptBuffer ("collection \x60" ++ pair.1 ++ "\x60 has an invalid id"))
  else if h : x.byName.contains pair.1 || x.byId.contains pair.2 then
    .error (.corruptBuffer
      ("duplicate id table entry \x60" ++ pair.1 ++ "\x60 -> " ++ pair.2.text))
  else
    have hnew : x.byName[pair.1]? = none := by
      simp only [Bool.or_eq_true, not_or, Bool.not_eq_true] at h
      exact Std.HashMap.getElem?_eq_none_of_contains_eq_false h.1
    .ok (x.push pair.1 pair.2 (max x.table.next (IdTable.successor pair.2)) hnew)

/-- The table that holds stored pairs. -/
def ofPairs (pairs : List (String × CollectionId)) : Except Error IndexedTable :=
  pairs.foldlM insertPair empty

/-! ## The table alone answers the same -/

/-- Lookups and new names have the answers of the table without its maps. -/
structure AnswersAsTable (x : IndexedTable) : Prop where
  id? : ∀ name, x.id? name = x.table.id? name
  name? : ∀ id, x.name? id = x.table.name? id
  add : ∀ name, (x.add name).map (fun (id, x') => (id, x'.table)) = x.table.add name

/-- The place that is found for a number is one of the pairs. -/
theorem name?_eq (x : IndexedTable) (id : CollectionId) : x.name? id = x.table.name? id := by
  unfold name?
  rcases hfound : x.byId[id]? with _ | i
  -- a number without a place has no pair
  · have hnone : ¬ ∃ name, x.table.name? id = some name := by
      rw [← IdTable.exists_isLastPlace_iff]
      rintro ⟨i, hplace⟩
      cases hfound.symm.trans ((x.byId_iff id i).2 hplace)
    rcases hname : x.table.name? id with _ | name
    · rfl
    · exact absurd ⟨name, hname⟩ hnone
  · have hplace := (x.byId_iff id i).1 hfound
    rcases hplace.1 with ⟨name, hpair⟩
    rw [IdTable.name?_eq_some_iff.2 ⟨i, hplace, hpair⟩]
    simp [hpair]

theorem add_table (x : IndexedTable) (name : String) :
    (x.add name).map (fun (id, x') => (id, x'.table)) = x.table.add name := by
  unfold add
  split
  case h_1 id hid =>
    rw [IdTable.add_of_id? ((x.byName_eq name).symm.trans hid)]
    rfl
  case h_2 hnone =>
    have hnew : x.table.id? name = none := (x.byName_eq name).symm.trans hnone
    rw [IdTable.add, hnew]
    unfold IdTable.increment
    split <;> rfl

theorem answersAsTable (x : IndexedTable) : x.AnswersAsTable where
  id? := x.byName_eq
  name? := x.name?_eq
  add := x.add_table

theorem insertPair_table (x : IndexedTable) (pair : String × CollectionId) :
    (x.insertPair pair).map (·.table) = x.table.insertPair pair := by
  rcases pair with ⟨name, id⟩
  have hname : x.byName.contains name = x.table.contains name := by
    rw [Std.HashMap.contains_eq_isSome_getElem?, x.byName_eq, IdTable.contains]
  have hid : x.byId.contains id = (x.table.name? id).isSome := by
    rw [Std.HashMap.contains_eq_isSome_getElem?, Bool.eq_iff_iff, Option.isSome_iff_exists,
      Option.isSome_iff_exists, ← IdTable.exists_isLastPlace_iff]
    simp only [x.byId_iff]
  unfold insertPair IdTable.insertPair
  dsimp only
  rw [← hname, ← hid]
  split
  · rfl
  · split <;> rfl

theorem foldlM_insertPair_table (pairs : List (String × CollectionId)) (x : IndexedTable) :
    (pairs.foldlM insertPair x).map (·.table) = pairs.foldlM IdTable.insertPair x.table := by
  induction pairs generalizing x with
  | nil => rfl
  | cons pair rest ih =>
    rw [List.foldlM_cons, List.foldlM_cons, ← insertPair_table]
    rcases x.insertPair pair with e | x'
    · rfl
    · exact ih x'

/-- Stored pairs are taken up, or refused with the same error. -/
theorem ofPairs_table (pairs : List (String × CollectionId)) :
    (ofPairs pairs).map (·.table) = IdTable.ofPairs pairs :=
  foldlM_insertPair_table pairs empty

/-! ## Equal tables -/

/-- Two tables are equal in every part. -/
structure Same (x y : IndexedTable) : Prop where
  table : x.table = y.table
  byName : x.byName.Equiv y.byName
  byId : x.byId.Equiv y.byId

/-- The maps are determined by the pairs. -/
theorem same_of_table_eq (h : x.table = y.table) : x.Same y where
  table := h
  byName := Std.HashMap.Equiv.of_forall_getElem?_eq fun name => by
    rw [x.byName_eq, y.byName_eq, h]
  byId := Std.HashMap.Equiv.of_forall_getElem?_eq fun id => by
    ext i
    rw [x.byId_iff, y.byId_iff, h]

theorem addAll_cons {x' : IndexedTable} (hadd : x.add name = .ok (id, x')) (rest : List String) :
    (x.addAll (name :: rest)).map (·.1) = ((x'.addAll rest).map (·.1)).map (id :: ·) := by
  rw [IndexedTable.addAll, hadd]
  change Except.map _ (x'.addAll rest >>= _) = _
  rcases x'.addAll rest with e | ⟨ids, x''⟩ <;> rfl

/-- Equal tables hand out the same numbers, or run out of them together. -/
theorem Same.addAll (h : x.Same y) (names : List String) :
    (x.addAll names).map (·.1) = (y.addAll names).map (·.1) := by
  induction names generalizing x y with
  | nil => rfl
  | cons name rest ih =>
    have hadd := x.add_table name
    rw [h.table, ← y.add_table name] at hadd
    rcases hx : x.add name with e | ⟨id, x'⟩ <;> rcases hy : y.add name with e' | ⟨id', y'⟩ <;>
      rw [hx, hy] at hadd
    · cases hadd
      rw [IndexedTable.addAll, IndexedTable.addAll, hx, hy]
    · cases hadd
    · cases hadd
    · obtain ⟨rfl, htable⟩ := Prod.mk.inj (Except.ok.inj hadd)
      rw [addAll_cons hx, addAll_cons hy, ih (same_of_table_eq htable)]

end IndexedTable

/-! ## Tables and their pairs -/

namespace IdTable

variable {t t' : IdTable} {name : String} {id : CollectionId}
  {pairs : List (String × CollectionId)}

/-- Names and numbers are distinct, and the numbers are valid. -/
structure Distinct (pairs : List (String × CollectionId)) : Prop where
  names : (pairs.map (·.1)).Nodup
  ids : (pairs.map (·.2)).Nodup
  valid : ∀ pair ∈ pairs, pair.2 ≠ .invalid

instance (pairs : List (String × CollectionId)) : Decidable (Distinct pairs) :=
  decidable_of_iff ((pairs.map (·.1)).Nodup ∧ (pairs.map (·.2)).Nodup ∧
      ∀ pair ∈ pairs, pair.2 ≠ .invalid)
    ⟨fun ⟨hnames, hids, hvalid⟩ => ⟨hnames, hids, hvalid⟩,
      fun h => ⟨h.names, h.ids, h.valid⟩⟩

theorem WellNumbered.distinct (h : t.WellNumbered) : Distinct t.pairs where
  names := h.names
  ids := h.ids
  valid pair hpair := bne_iff_ne.1 (h.valid pair hpair)

theorem Distinct.insertPair (h : Distinct (t.pairs ++ (name, id) :: pairs)) :
    IdTable.insertPair t (name, id) =
      .ok ⟨t.pairs ++ [(name, id)], max t.next (successor id)⟩ := by
  have hvalid : id.isValid = true :=
    bne_iff_ne.2 (h.valid (name, id) (List.mem_append_right _ List.mem_cons_self))
  have hnames := h.names
  have hids := h.ids
  rw [List.map_append, List.map_cons] at hnames hids
  refine insertPair_eq_ok_iff.2 ⟨hvalid, fun hmem => ?_, fun hmem => ?_, rfl⟩
  · exact (List.nodup_append.1 hnames).2.2 name hmem name List.mem_cons_self rfl
  · exact (List.nodup_append.1 hids).2.2 id hmem id List.mem_cons_self rfl

/-- Pairs are taken up into a table exactly if they and those of the table are distinct. -/
theorem exists_foldlM_iff (ht : t.WellNumbered) :
    (∃ t', pairs.foldlM IdTable.insertPair t = .ok t') ↔ Distinct (t.pairs ++ pairs) := by
  constructor
  · rintro ⟨t', h⟩
    obtain ⟨hwell, hpairs⟩ := foldlM_insertPair ht h
    exact hpairs ▸ hwell.distinct
  · intro h
    induction pairs generalizing t with
    | nil => exact ⟨t, rfl⟩
    | cons pair rest ih =>
      have hfirst := h.insertPair
      obtain ⟨t', ht'⟩ := ih (ht.insertPair hfirst) (by simpa using h)
      exact ⟨t', by rw [List.foldlM_cons, hfirst]; exact ht'⟩

theorem exists_ofPairs_iff : (∃ t, ofPairs pairs = .ok t) ↔ Distinct pairs :=
  exists_foldlM_iff wellNumbered_empty

/-- Names and numbers of the table belong together one by one, and no others are known. -/
structure IsBijection (t : IdTable) : Prop where
  id?_iff : ∀ name id, t.id? name = some id ↔ (name, id) ∈ t.pairs
  name?_iff : ∀ name id, t.name? id = some name ↔ (name, id) ∈ t.pairs
  id?_none : ∀ name, t.id? name = none ↔ name ∉ t.pairs.map (·.1)
  name?_none : ∀ id, t.name? id = none ↔ id ∉ t.pairs.map (·.2)

theorem mem_of_name? (h : t.name? id = some name) : (name, id) ∈ t.pairs := by
  rcases name?_eq_some_iff.1 h with ⟨i, -, hpair⟩
  exact List.mem_of_getElem? hpair

theorem WellNumbered.isBijection (h : t.WellNumbered) : t.IsBijection where
  id?_iff name id := ⟨mem_of_lookup_eq_some, lookup_eq_some_of_mem h.names⟩
  name?_iff name id := by
    refine ⟨mem_of_name?, fun hmem => ?_⟩
    have hknown : t.name? id ≠ none := fun hnone =>
      name?_eq_none_iff.1 hnone (List.mem_map_of_mem hmem)
    rcases Option.ne_none_iff_exists'.1 hknown with ⟨other, hother⟩
    have hsame := List.inj_on_of_nodup_map h.ids (mem_of_name? hother) hmem rfl
    rw [hother, (Prod.mk.inj hsame).1]
  id?_none name := by
    rw [← Option.not_isSome_iff_eq_none, Bool.not_eq_true]
    exact contains_eq_false_iff
  name?_none id := name?_eq_none_iff

/-- A list of pairs is taken up exactly if names and numbers are distinct and the numbers valid, and
then these are the pairs of the table. Hash maps for the lookups change no answer. And a table that
was built in any way is a bijection and equal, in every part, to the one that its pairs make, which
therefore hands out the same numbers, and runs out of them at the same name; so is the table that comes
back from a stream. -/
theorem determined_by_pairs :
    (∀ pairs, (∃ t, ofPairs pairs = .ok t) ↔ Distinct pairs) ∧
      (∀ pairs t, ofPairs pairs = .ok t → t.pairs = pairs) ∧
      (∀ pairs, (IndexedTable.ofPairs pairs).map (·.table) = ofPairs pairs) ∧
      (∀ x : IndexedTable, x.AnswersAsTable) ∧
      ∀ t : IdTable, t.Built →
        t.IsBijection ∧ ofPairs t.pairs = .ok t ∧
        (∀ x : IndexedTable, x.table = t → ∃ y, IndexedTable.ofPairs t.pairs = .ok y ∧
          y.Same x ∧ ∀ names, (y.addAll names).map (·.1) = (x.addAll names).map (·.1)) ∧
        ∀ config (d : FrameData), d.ids = t → d.Storable →
          ∃ d', Stream.decode config (Stream.encode config d) = .ok d' ∧ d'.ids = t := by
  refine ⟨fun _ => exists_ofPairs_iff, fun pairs t h => (wellNumbered_of_ofPairs h).2,
    IndexedTable.ofPairs_table, IndexedTable.answersAsTable, fun t hbuilt => ?_⟩
  have hpairs : ofPairs t.pairs = .ok t := ofPairs_pairs hbuilt
  refine ⟨hbuilt.wellNumbered.isBijection, hpairs, ?_, ?_⟩
  · intro x hx
    have htable := IndexedTable.ofPairs_table t.pairs
    rw [hpairs] at htable
    rcases map_eq_ok_iff.1 htable with ⟨y, hy, hyt⟩
    have hsame : y.Same x := IndexedTable.same_of_table_eq (hyt.trans hx.symm)
    exact ⟨y, hy, hsame, hsame.addAll⟩
  · intro config d hids hd
    have hread := Stream.read_encode_append config hd []
    rw [List.append_nil] at hread
    refine ⟨d.quiet, ?_, hids⟩
    rw [Stream.decode, hread]
    rfl

/-- A table with numbers that are not dense, and one that was added to it. -/
def startTable : IdTable :=
  ⟨[("b", ⟨0⟩), ("a", ⟨9⟩)], 10⟩

def gapTable : IdTable :=
  ⟨[("b", ⟨0⟩), ("a", ⟨9⟩), ("z", ⟨10⟩)], 11⟩

theorem ofPairs_startTable : ofPairs startTable.pairs = .ok startTable := by
  decide

theorem add_startTable : startTable.add "z" = .ok (⟨10⟩, gapTable) := by
  decide

theorem determined_by_pairs_gapTable :
    gapTable.Built ∧ gapTable.IsBijection ∧ ofPairs gapTable.pairs = .ok gapTable ∧
      (∃ x x' y : IndexedTable, IndexedTable.ofPairs startTable.pairs = .ok x ∧
        x.add "z" = .ok (⟨10⟩, x') ∧ IndexedTable.ofPairs gapTable.pairs = .ok y ∧ y.Same x' ∧
        (y.addAll ["new", "b"]).map (·.1) = (x'.addAll ["new", "b"]).map (·.1)) ∧
      ∃ d', Stream.decode {} (Stream.encode {} ⟨gapTable, [], .empty⟩) = .ok d' ∧
        d'.ids = gapTable := by
  rcases determined_by_pairs with ⟨-, -, hindexed, hanswers, htables⟩
  have hbuilt : gapTable.Built := .add (.ofPairs ofPairs_startTable) add_startTable
  rcases htables gapTable hbuilt with ⟨hbijection, hpairs, hsame, hstream⟩
  refine ⟨hbuilt, hbijection, hpairs, ?_, ?_⟩
  · have hstart := hindexed startTable.pairs
    rw [ofPairs_startTable] at hstart
    rcases map_eq_ok_iff.1 hstart with ⟨x, hx, hxt⟩
    have hadd := (hanswers x).add "z"
    rw [hxt, add_startTable] at hadd
    rcases map_eq_ok_iff.1 hadd with ⟨⟨id, x'⟩, hx', heq⟩
    obtain ⟨rfl, htable⟩ := Prod.mk.inj heq
    rcases hsame x' htable with ⟨y, hy, hsame, hids⟩
    exact ⟨x, x', y, hx, hx', hy, hsame, hids _⟩
  · exact hstream {} ⟨gapTable, [], .empty⟩ rfl
      ⟨hbuilt, Parameters.isSorted_empty, by decide⟩

end IdTable
end EventModel
