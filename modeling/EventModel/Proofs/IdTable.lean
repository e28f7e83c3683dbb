import Mathlib.Data.Finset.Card
import Mathlib.Data.List.Nodup
import EventModel.IdTable

/-!
# Id tables and their pairs

An id table is determined by its pairs: names and numbers are distinct, the numbers are valid and
below the next one, and taking up the pairs again gives the same table (`ofPairs_pairs`). A sequence
of names is added, with distinct numbers, exactly if there are numbers left for them
(`addsApart_iff`).
-/

namespace EventModel

/-- Lookup finds every pair of a list whose first components are distinct. -/
theorem lookup_eq_some_of_mem [DecidableEq α] {l : List (α × β)} {x : α} {y : β}
    (hnodup : (l.map (·.1)).Nodup) (h : (x, y) ∈ l) : l.lookup x = some y := by
  induction l with
  | nil => simp at h
  | cons head rest ih =>
    simp only [List.map_cons, List.nodup_cons, List.mem_map] at hnodup
    rcases List.mem_cons.1 h with rfl | hrest
    · simp
    · have hne : x ≠ head.1 := fun heq => hnodup.1 ⟨(x, y), hrest, heq⟩
      have hbeq : (x == head.1) = false := by simpa using hne
      rw [List.lookup_cons, hbeq]
      exact ih hnodup.2 hrest

theorem mem_of_lookup_eq_some [DecidableEq α] {l : List (α × β)} {x : α} {y : β}
    (h : l.lookup x = some y) : (x, y) ∈ l := by
  obtain ⟨front, back, rfl, -⟩ := List.lookup_eq_some_iff.1 h
  simp

namespace IdTable

/-- The tables that the operations make. -/
inductive Built : IdTable → Prop
  | empty : Built .empty
  | ofPairs {pairs : List (String × CollectionId)} {t : IdTable} (h : IdTable.ofPairs pairs = .ok t) :
      Built t
  | add {t t' : IdTable} {name : String} {id : CollectionId} (h : Built t)
      (hadd : t.add name = .ok (id, t')) : Built t'

/-- Names and numbers are distinct and valid, and the next number is above them all. -/
structure WellNumbered (t : IdTable) : Prop where
  names : t.names.Nodup
  ids : (t.pairs.map (·.2)).Nodup
  valid : ∀ pair ∈ t.pairs, pair.2.isValid = true
  below : ∀ pair ∈ t.pairs, pair.2.val < t.next

theorem wellNumbered_empty : WellNumbered .empty where
  names := by simp [IdTable.names, IdTable.empty]
  ids := by simp [IdTable.empty]
  valid := by simp [IdTable.empty]
  below := by simp [IdTable.empty]

theorem contains_eq_false_iff {t : IdTable} {name : String} :
    t.contains name = false ↔ name ∉ t.names := by
  simp only [IdTable.contains, id?, Option.isSome_eq_false_iff, Option.isNone_iff_eq_none,
    List.lookup_eq_none_iff, IdTable.names, List.mem_map, not_exists, not_and]
  constructor
  · intro h pair hpair heq
    simpa [heq] using h pair hpair
  · intro h pair hpair
    simpa using fun heq => h pair hpair heq.symm

theorem name?_eq_none_iff {t : IdTable} {id : CollectionId} :
    t.name? id = none ↔ id ∉ t.pairs.map (·.2) := by
  simp only [name?, Option.map_eq_none_iff, List.find?_eq_none, List.mem_reverse, List.mem_map,
    not_exists, not_and, beq_iff_eq]

/-- What taking up one pair checks and does. -/
theorem insertPair_eq_ok_iff {t t' : IdTable} {name : String} {id : CollectionId} :
    insertPair t (name, id) = .ok t' ↔
      id.isValid = true ∧ name ∉ t.names ∧ id ∉ t.pairs.map (·.2) ∧
        t' = ⟨t.pairs ++ [(name, id)], max t.next (successor id)⟩ := by
  rw [← contains_eq_false_iff, ← name?_eq_none_iff]
  simp only [insertPair]
  cases id.isValid <;> cases t.contains name <;> cases t.name? id <;> simp [eq_comm]

theorem lt_max {a b c : UInt32} (h : a < b ∨ a < c) : a < max b c := by
  change a < if b ≤ c then c else b
  split <;> simp only [UInt32.lt_iff_toNat_lt, UInt32.le_iff_toNat_le] at * <;> omega

theorem lt_successor {id : CollectionId} (h : id.isValid = true) : id.val < successor id := by
  have hne : id ≠ .invalid := by simpa [CollectionId.isValid] using h
  have hval : id.val ≠ 0xffffffff := fun heq => hne (by cases id; simp_all [CollectionId.invalid])
  have hnat : id.val.toNat ≠ 0xffffffff := fun heq => hval (UInt32.toNat_inj.1 heq)
  have hlt := id.val.toNat_lt
  rw [successor, if_neg hne, UInt32.lt_iff_toNat_lt, UInt32.toNat_add]
  change _ < (_ + 1) % _
  rw [Nat.mod_eq_of_lt (by omega)]
  omega

theorem WellNumbered.insertPair {t t' : IdTable} {pair : String × CollectionId}
    (ht : t.WellNumbered) (h : IdTable.insertPair t pair = .ok t') : t'.WellNumbered := by
  obtain ⟨name, id⟩ := pair
  obtain ⟨hvalid, hname, hid, rfl⟩ := insertPair_eq_ok_iff.1 h
  constructor
  case names =>
    rw [IdTable.names, List.map_append]
    exact List.nodup_append_comm.1 (List.nodup_cons.2 ⟨hname, ht.names⟩)
  case ids =>
    rw [List.map_append]
    exact List.nodup_append_comm.1 (List.nodup_cons.2 ⟨hid, ht.ids⟩)
  case valid =>
    intro pair hpair
    rcases List.mem_append.1 hpair with hold | hnew
    · exact ht.valid pair hold
    · simp only [List.mem_singleton] at hnew
      simpa [hnew] using hvalid
  case below =>
    intro pair hpair
    rcases List.mem_append.1 hpair with hold | hnew
    · exact lt_max (.inl (ht.below pair hold))
    · simp only [List.mem_singleton] at hnew
      rw [hnew]
      exact lt_max (.inr (lt_successor hvalid))

theorem foldlM_insertPair {pairs : List (String × CollectionId)} {t t' : IdTable}
    (ht : t.WellNumbered) (h : pairs.foldlM IdTable.insertPair t = .ok t') :
    t'.WellNumbered ∧ t'.pairs = t.pairs ++ pairs := by
  induction pairs generalizing t with
  | nil =>
    cases h
    exact ⟨ht, by simp⟩
  | cons pair rest ih =>
    rw [List.foldlM_cons] at h
    rcases hpair : IdTable.insertPair t pair with e | next
    · rw [hpair] at h
      cases h
    · rw [hpair] at h
      obtain ⟨hnext, hpairs⟩ := ih (ht.insertPair hpair) h
      obtain ⟨name, id⟩ := pair
      obtain ⟨-, -, -, rfl⟩ := insertPair_eq_ok_iff.1 hpair
      exact ⟨hnext, by simp [hpairs]⟩

theorem wellNumbered_of_ofPairs {pairs : List (String × CollectionId)} {t : IdTable}
    (h : IdTable.ofPairs pairs = .ok t) : t.WellNumbered ∧ t.pairs = pairs := by
  simpa [IdTable.empty] using foldlM_insertPair wellNumbered_empty h

theorem exists_id?_of_mem {t : IdTable} {name : String} (h : name ∈ t.names) :
    ∃ id, t.id? name = some id := by
  by_contra hnot
  rw [← Option.isSome_iff_exists] at hnot
  exact contains_eq_false_iff.1 (Bool.eq_false_iff.2 hnot) h

/-! ## Adding a name -/

theorem isValid_next_iff {t : IdTable} :
    (⟨t.next⟩ : CollectionId).isValid = true ↔ t.next.toNat + 1 < 2 ^ 32 := by
  have hlt := t.next.toNat_lt
  have hiff : t.next = 0xffffffff ↔ t.next.toNat = 0xffffffff := by
    rw [← UInt32.toNat_inj]
    rfl
  simp only [CollectionId.isValid, CollectionId.invalid, bne_iff_ne, ne_eq, CollectionId.mk.injEq,
    hiff]
  omega

theorem add_of_id? {t : IdTable} {name : String} {id : CollectionId} (h : t.id? name = some id) :
    t.add name = .ok (id, t) := by
  rw [IdTable.add, h]

theorem id?_eq_none_iff {t : IdTable} {name : String} : t.id? name = none ↔ name ∉ t.names := by
  rw [← contains_eq_false_iff, IdTable.contains, Option.isSome_eq_false_iff,
    Option.isNone_iff_eq_none]

/-- A new name gets the next number if that number is valid. -/
theorem add_of_not_mem {t : IdTable} {name : String} (h : name ∉ t.names)
    (hnext : t.next.toNat + 1 < 2 ^ 32) :
    t.add name = .ok (⟨t.next⟩, ⟨t.pairs ++ [(name, ⟨t.next⟩)], t.next + 1⟩) := by
  rw [IdTable.add, id?_eq_none_iff.2 h, increment, if_pos hnext]
  rfl

/-- There is no number left for a new name. -/
theorem add_eq_overflow {t : IdTable} {name : String} (h : name ∉ t.names)
    (hnext : ¬ t.next.toNat + 1 < 2 ^ 32) : t.add name = .error .overflow := by
  rw [IdTable.add, id?_eq_none_iff.2 h, increment, if_neg hnext]
  rfl

/-- What adding a name does: a known name has its number, and an unknown one gets the next. -/
theorem add_eq_ok_iff {t t' : IdTable} {name : String} {id : CollectionId} :
    t.add name = .ok (id, t') ↔ (t.id? name = some id ∧ t' = t) ∨
      (name ∉ t.names ∧ t.next.toNat + 1 < 2 ^ 32 ∧ id = ⟨t.next⟩ ∧
        t' = ⟨t.pairs ++ [(name, ⟨t.next⟩)], t.next + 1⟩) := by
  rcases hname : t.id? name with _ | known
  · have hnew := id?_eq_none_iff.1 hname
    by_cases hnext : t.next.toNat + 1 < 2 ^ 32
    · rw [add_of_not_mem hnew hnext]
      simp [hnew, hnext, eq_comm]
    · rw [add_eq_overflow hnew hnext]
      simp [hnext]
  · have hknown : name ∈ t.names := by
      by_contra hnew
      cases hname.symm.trans (id?_eq_none_iff.2 hnew)
    rw [add_of_id? hname]
    simp [hknown, eq_comm]

/-- The only failure is that the numbers run out. -/
theorem add_eq_error_iff {t : IdTable} {name : String} {e : Error} :
    t.add name = .error e ↔
      name ∉ t.names ∧ ¬ t.next.toNat + 1 < 2 ^ 32 ∧ e = .overflow := by
  by_cases hmem : name ∈ t.names
  · obtain ⟨id, hid⟩ := exists_id?_of_mem hmem
    simp [add_of_id? hid, hmem]
  · by_cases hnext : t.next.toNat + 1 < 2 ^ 32
    · simp [add_of_not_mem hmem hnext, hnext]
    · simp [add_eq_overflow hmem hnext, hmem, hnext, eq_comm]

/-- A new name is taken up as its pair would be. -/
theorem insertPair_next {t : IdTable} {name : String} (ht : t.WellNumbered)
    (hname : name ∉ t.names) (hnext : t.next.toNat + 1 < 2 ^ 32) :
    IdTable.insertPair t (name, ⟨t.next⟩) = .ok ⟨t.pairs ++ [(name, ⟨t.next⟩)], t.next + 1⟩ := by
  have hvalid := isValid_next_iff.2 hnext
  have hfresh : (⟨t.next⟩ : CollectionId) ∉ t.pairs.map (·.2) := by
    intro hmem
    obtain ⟨pair, hpair, heq⟩ := List.mem_map.1 hmem
    have hlt := ht.below pair hpair
    rw [heq] at hlt
    exact UInt32.lt_irrefl _ hlt
  refine insertPair_eq_ok_iff.2 ⟨hvalid, hname, hfresh, ?_⟩
  have hne : (⟨t.next⟩ : CollectionId) ≠ .invalid := by
    simpa [CollectionId.isValid] using hvalid
  have hmax : max t.next (successor ⟨t.next⟩) = t.next + 1 := by
    change (if t.next ≤ successor ⟨t.next⟩ then successor ⟨t.next⟩ else t.next) = _
    rw [if_pos (UInt32.le_of_lt (lt_successor hvalid)), successor, if_neg hne]
  rw [hmax]

theorem WellNumbered.add {t t' : IdTable} (ht : t.WellNumbered) {name : String}
    {id : CollectionId} (hadd : t.add name = .ok (id, t')) : t'.WellNumbered := by
  rcases add_eq_ok_iff.1 hadd with ⟨-, rfl⟩ | ⟨hnew, hnext, -, rfl⟩
  · exact ht
  · exact ht.insertPair (insertPair_next ht hnew hnext)

theorem Built.wellNumbered {t : IdTable} (h : t.Built) : t.WellNumbered := by
  induction h with
  | empty => exact wellNumbered_empty
  | ofPairs h => exact (wellNumbered_of_ofPairs h).1
  | add _ hadd ih => exact ih.add hadd

/-- A table is the one that its pairs make, its next number included. -/
theorem ofPairs_pairs {t : IdTable} (h : t.Built) : IdTable.ofPairs t.pairs = .ok t := by
  -- on how the table was built
  induction h with
  | empty => rfl
  | ofPairs h =>
    obtain ⟨-, hpairs⟩ := wellNumbered_of_ofPairs h
    rw [hpairs, h]
  | @add t t' name id h hadd ih =>
    rcases add_eq_ok_iff.1 hadd with ⟨-, rfl⟩ | ⟨hnew, hnext, -, rfl⟩
    · exact ih
    · -- the pair of a new name is the last one, so the others already make the table before
      rw [IdTable.ofPairs] at ih ⊢
      rw [List.foldlM_append, ih]
      change List.foldlM IdTable.insertPair t [(name, ⟨t.next⟩)] = _
      rw [List.foldlM_cons, insertPair_next h.wellNumbered hnew hnext]
      rfl

theorem id?_add_self {t t' : IdTable} {name : String} {id : CollectionId}
    (hadd : t.add name = .ok (id, t')) : t'.id? name = some id := by
  rcases add_eq_ok_iff.1 hadd with ⟨hid, rfl⟩ | ⟨hnew, -, rfl, rfl⟩
  · exact hid
  · have hnone : t.pairs.lookup name = none := id?_eq_none_iff.2 hnew
    simp [IdTable.id?, List.lookup_append, hnone]

/-- A registered name keeps its number. -/
theorem id?_add_of_id? {t t' : IdTable} {name other : String} {id id' : CollectionId}
    (hadd : t.add name = .ok (id', t')) (h : t.id? other = some id) : t'.id? other = some id := by
  rcases add_eq_ok_iff.1 hadd with ⟨-, rfl⟩ | ⟨-, -, -, rfl⟩
  · exact h
  · unfold IdTable.id? at h ⊢
    simp [List.lookup_append, h]

/-- A number belongs to one name only. -/
theorem name_eq_of_id? {t : IdTable} (h : t.WellNumbered) {name other : String}
    {id : CollectionId} (hname : t.id? name = some id) (hother : t.id? other = some id) :
    name = other := by
  have hpair := mem_of_lookup_eq_some hname
  have hpair' := mem_of_lookup_eq_some hother
  exact congrArg Prod.fst (List.inj_on_of_nodup_map h.ids hpair hpair' rfl)

theorem WellNumbered.isValid_of_id? {t : IdTable} (ht : t.WellNumbered) {name : String}
    {id : CollectionId} (h : t.id? name = some id) : id.isValid = true :=
  ht.valid _ (mem_of_lookup_eq_some h)

/-- The next number is above those of the table, so it is new. -/
theorem WellNumbered.id?_ne_next {t : IdTable} (ht : t.WellNumbered) (other : String) :
    t.id? other ≠ some ⟨t.next⟩ := by
  intro h
  exact UInt32.lt_irrefl _ (ht.below _ (mem_of_lookup_eq_some h))

/-! ## Sequences of new names -/

/-- The number `id` was given to `name` and the table is now `t'`, and the numbers do not run into
each other. -/
structure KeepsApart (t : IdTable) (name : String) (id : CollectionId) (t' : IdTable) : Prop where
  valid : id.isValid = true
  has : t'.id? name = some id
  /-- A known name has its number, and nothing changes. -/
  known : ∀ old, t.id? name = some old → id = old ∧ t' = t
  /-- No other name has the number of an unknown name. -/
  unknown : name ∉ t.names → ∀ other, t.id? other ≠ some id
  /-- The table can be taken up again from its pairs. -/
  accepted : IdTable.ofPairs t'.pairs = .ok t'

/-- Names are added one after the other, and the numbers are kept apart all the time. -/
inductive AddsApart : IdTable → List String → Prop
  | nil {t : IdTable} : AddsApart t []
  | cons {t t' : IdTable} {name : String} {id : CollectionId} {rest : List String}
      (hadd : t.add name = .ok (id, t')) (first : KeepsApart t name id t')
      (later : AddsApart t' rest) : AddsApart t (name :: rest)

/-- The table after all the names were added. -/
def addAll (t : IdTable) (names : List String) : Except Error IdTable :=
  names.foldlM (fun t name => (·.2) <$> t.add name) t

/-- The numbers from the next one on suffice for those of the names that the table does not have. -/
def HasRoomFor (t : IdTable) (names : List String) : Prop :=
  t.next.toNat + (names.toFinset \ t.names.toFinset).card < 2 ^ 32

instance (t : IdTable) (names : List String) : Decidable (t.HasRoomFor names) :=
  inferInstanceAs (Decidable (_ < _))

/-- Whatever number is handed out is kept apart from all others. -/
theorem keepsApart_of_add {t t' : IdTable} (h : t.Built) {name : String} {id : CollectionId}
    (hadd : t.add name = .ok (id, t')) : t.KeepsApart name id t' := by
  have hbuilt : t'.Built := .add h hadd
  have hself := id?_add_self hadd
  refine ⟨hbuilt.wellNumbered.isValid_of_id? hself, hself, ?_, ?_, ofPairs_pairs hbuilt⟩
  · intro old hold
    rw [add_of_id? hold] at hadd
    cases hadd
    exact ⟨rfl, rfl⟩
  · intro hnew other
    rcases add_eq_ok_iff.1 hadd with ⟨hid, -⟩ | ⟨-, -, rfl, -⟩
    · cases hid.symm.trans (id?_eq_none_iff.2 hnew)
    · exact h.wellNumbered.id?_ne_next other

/-- A known name takes no number. -/
theorem hasRoomFor_cons_of_mem {t : IdTable} {name : String} (hmem : name ∈ t.names)
    (rest : List String) : t.HasRoomFor (name :: rest) ↔ t.HasRoomFor rest := by
  have hnames : (name :: rest).toFinset \ t.names.toFinset = rest.toFinset \ t.names.toFinset := by
    rw [List.toFinset_cons, Finset.insert_sdiff_of_mem _ (List.mem_toFinset.2 hmem)]
  rw [HasRoomFor, HasRoomFor, hnames]

/-- A new name takes one number. -/
theorem hasRoomFor_cons_of_not_mem {t : IdTable} {name : String} (hnew : name ∉ t.names)
    (rest : List String) : t.HasRoomFor (name :: rest) ↔ t.next.toNat + 1 < 2 ^ 32 ∧
      HasRoomFor ⟨t.pairs ++ [(name, ⟨t.next⟩)], t.next + 1⟩ rest := by
  -- Counting the new names, `name` stands for one of them and does not count again in `rest`.
  have hcard : ((name :: rest).toFinset \ t.names.toFinset).card =
      (rest.toFinset \ (t.names ++ [name]).toFinset).card + 1 := by
    have hsplit : (name :: rest).toFinset \ t.names.toFinset =
        insert name (rest.toFinset \ (t.names ++ [name]).toFinset) := by
      ext other
      simp only [List.toFinset_cons, Finset.mem_sdiff, Finset.mem_insert, List.mem_toFinset,
        List.mem_append, List.mem_singleton]
      by_cases heq : other = name
      · simp [heq, hnew]
      · simp [heq]
    rw [hsplit, Finset.card_insert_of_notMem (by simp)]
  have hnames : (⟨t.pairs ++ [(name, ⟨t.next⟩)], t.next + 1⟩ : IdTable).names =
      t.names ++ [name] := by
    simp [IdTable.names]
  have hnext : t.next.toNat + 1 < 2 ^ 32 → (t.next + 1).toNat = t.next.toNat + 1 := by
    intro hlt
    rw [UInt32.toNat_add]
    exact Nat.mod_eq_of_lt hlt
  simp only [HasRoomFor, hcard, hnames]
  constructor
  · intro hroom
    have hlt : t.next.toNat + 1 < 2 ^ 32 := by omega
    refine ⟨hlt, ?_⟩
    rw [hnext hlt]
    omega
  · rintro ⟨hlt, hroom⟩
    rw [hnext hlt] at hroom
    omega

/-- Names are added, and told apart, exactly as long as there are numbers left for the new ones. -/
theorem addsApart_iff {t : IdTable} (h : t.Built) (names : List String) :
    t.AddsApart names ↔ t.HasRoomFor names := by
  induction names generalizing t with
  | nil => simpa [HasRoomFor, AddsApart.nil] using t.next.toNat_lt
  | cons name rest ih =>
    constructor
    · rintro (_ | ⟨hadd, -, hrest⟩)
      have hroom := (ih (.add h hadd)).1 hrest
      rcases add_eq_ok_iff.1 hadd with ⟨hid, rfl⟩ | ⟨hnew, hnext, -, rfl⟩
      · refine (hasRoomFor_cons_of_mem ?_ rest).2 hroom
        exact List.mem_map.2 ⟨_, mem_of_lookup_eq_some hid, rfl⟩
      · exact (hasRoomFor_cons_of_not_mem hnew rest).2 ⟨hnext, hroom⟩
    · intro hroom
      have hcons : ∀ id t', t.add name = .ok (id, t') → t'.HasRoomFor rest →
          t.AddsApart (name :: rest) := fun id t' hadd hroom' =>
        .cons hadd (keepsApart_of_add h hadd) ((ih (.add h hadd)).2 hroom')
      by_cases hmem : name ∈ t.names
      · obtain ⟨id, hid⟩ := exists_id?_of_mem hmem
        exact hcons id t (add_of_id? hid) ((hasRoomFor_cons_of_mem hmem rest).1 hroom)
      · obtain ⟨hnext, hroom'⟩ := (hasRoomFor_cons_of_not_mem hmem rest).1 hroom
        exact hcons _ _ (add_of_not_mem hmem hnext) hroom'

/-- A name can be added exactly if there is a number left for it. -/
theorem hasRoomFor_singleton_iff {t : IdTable} (h : t.Built) {name : String} :
    t.HasRoomFor [name] ↔ ∃ id t', t.add name = .ok (id, t') := by
  rw [← addsApart_iff h]
  constructor
  · rintro (_ | ⟨hadd, -, -⟩)
    exact ⟨_, _, hadd⟩
  · rintro ⟨id, t', hadd⟩
    exact .cons hadd (keepsApart_of_add h hadd) .nil

/-- Names are added without a failure, or the numbers run out. -/
theorem addAll_cases {t : IdTable} (h : t.Built) (names : List String) :
    (t.AddsApart names ∧ ∃ t', t.addAll names = .ok t') ∨
      (¬ t.AddsApart names ∧ t.addAll names = .error .overflow) := by
  induction names generalizing t with
  | nil => exact .inl ⟨.nil, t, rfl⟩
  | cons name rest ih =>
    rw [addAll, List.foldlM_cons]
    rcases hadd : t.add name with e | ⟨id, t'⟩
    · obtain ⟨-, -, rfl⟩ := add_eq_error_iff.1 hadd
      refine .inr ⟨?_, rfl⟩
      rintro (_ | ⟨hadd', -, -⟩)
      cases hadd.symm.trans hadd'
    · rcases ih (.add h hadd) with ⟨hrest, hall⟩ | ⟨hrest, hall⟩
      · exact .inl ⟨.cons hadd (keepsApart_of_add h hadd) hrest, hall⟩
      · refine .inr ⟨?_, hall⟩
        rintro (_ | ⟨hadd', -, hrest'⟩)
        cases hadd.symm.trans hadd'
        exact hrest hrest'

end IdTable
end EventModel
