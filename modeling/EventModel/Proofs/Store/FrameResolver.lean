import EventModel.Proofs.Store.Preservation

/-!
# What a frame finds for a number

A frame finds a collection at the position that it keeps for a number. In a well-formed store that is
the collection that has the number, so a frame answers as a resolver that looks through its collections
(`resolver_eq_resolverOf`).
-/

namespace EventModel.Store

variable {s : Store} {c : CollectionKey} {f : FrameKey} {frame : Frame} {name : String}
  {col : Collection}

/-- Some collections with their numbers. -/
def known (s : Store) (cs : List CollectionKey) : List (CollectionId × CollectionKey) :=
  cs.filterMap fun c => (s.collections.get? c).map fun col => (col.id, c)

theorem resolverOf_eq_lookup (cs : List CollectionKey) (n : CollectionId) :
    s.resolverOf cs n = (s.known cs).reverse.lookup n := by
  unfold resolverOf known
  rw [List.filterMap_reverse]

theorem mem_known {cs : List CollectionKey} {n : CollectionId} :
    (n, c) ∈ s.known cs ↔ c ∈ cs ∧ ∃ col, s.collections.get? c = some col ∧ col.id = n := by
  unfold known
  rw [List.mem_filterMap]
  constructor
  · rintro ⟨c', hc', hentry⟩
    rcases Option.map_eq_some_iff.1 hentry with ⟨col, hcol, heq⟩
    cases heq
    exact ⟨hc', col, hcol, rfl⟩
  · rintro ⟨hc, col, hcol, rfl⟩
    exact ⟨c, hc, by rw [hcol, Option.map_some]⟩

/-- Collections with distinct names have distinct numbers. -/
theorem nodup_known {ids : IdTable} (hids : ids.WellNumbered)
    {slots : List (String × CollectionKey)} (hnames : (slots.map (·.1)).Nodup)
    (hheld : ∀ slot ∈ slots, ∃ col, s.collections.get? slot.2 = some col ∧
      ids.id? slot.1 = some col.id) :
    ((s.known (slots.map (·.2))).map (·.1)).Nodup := by
  induction slots with
  | nil => exact List.nodup_nil
  | cons slot rest ih =>
    rcases hheld slot List.mem_cons_self with ⟨col, hcol, hid⟩
    rw [List.map_cons, List.nodup_cons] at hnames
    have hrest := ih hnames.2 fun slot' hslot' => hheld slot' (List.mem_cons_of_mem slot hslot')
    have hknown : s.known ((slot :: rest).map (·.2)) =
        (col.id, slot.2) :: s.known (rest.map (·.2)) := by
      simp [known, hcol]
    rw [hknown, List.map_cons, List.nodup_cons]
    refine ⟨?_, hrest⟩
    -- a number that comes twice would belong to two names
    intro hmem
    rcases List.mem_map.1 hmem with ⟨⟨n, c⟩, hentry, rfl⟩
    rcases mem_known.1 hentry with ⟨hc, col', hcol', hnumber⟩
    rcases List.mem_map.1 hc with ⟨slot', hslot', rfl⟩
    rcases hheld slot' (List.mem_cons_of_mem slot hslot') with ⟨col'', hcol'', hid'⟩
    cases hcol'.symm.trans hcol''
    rw [hnumber] at hid'
    refine hnames.1 (List.mem_map.2 ⟨slot', hslot', ?_⟩)
    exact IdTable.name_eq_of_id? hids hid' hid

/-- The name of a collection finds it in its frame. -/
theorem collection?_of_mem (h : WellFormed s) (hframe : s.frames.get? f = some frame)
    (hslot : (name, c) ∈ frame.slots) : frame.collection? name = some c :=
  (h.indexed f frame hframe).collection?_iff.2 hslot

/-- A number finds the collection of the frame that has it. -/
theorem resolver_eq_some_iff (h : WellFormed s) (hframe : s.frames.get? f = some frame)
    {n : CollectionId} : frame.resolver n = some c ↔
      ∃ name col, (name, c) ∈ frame.slots ∧ s.collections.get? c = some col ∧ col.id = n := by
  rw [(h.indexed f frame hframe).resolver_iff]
  constructor
  · rintro ⟨name, hslot, hid⟩
    obtain ⟨col, hcol, hnumber⟩ := h.held f frame name c hframe hslot
    exact ⟨name, col, hslot, hcol, Option.some.inj (hnumber.symm.trans hid)⟩
  · rintro ⟨name, col, hslot, hcol, rfl⟩
    obtain ⟨col', hcol', hnumber⟩ := h.held f frame name c hframe hslot
    cases hcol.symm.trans hcol'
    exact ⟨name, hslot, hnumber⟩

/-- The number of a collection finds it in its frame. -/
theorem resolver_eq_some (h : WellFormed s) (hframe : s.frames.get? f = some frame)
    (hslot : (name, c) ∈ frame.slots) (hcol : s.collections.get? c = some col) :
    frame.resolver col.id = some c :=
  (resolver_eq_some_iff h hframe).2 ⟨name, col, hslot, hcol, rfl⟩

/-- The positions that a frame keeps answer as a search through its collections. -/
theorem resolver_eq_resolverOf (h : WellFormed s) (hframe : s.frames.get? f = some frame) :
    frame.resolver = s.resolverOf (frame.slots.map (·.2)) := by
  have hnodup : ((s.known (frame.slots.map (·.2))).reverse.map (·.1)).Nodup := by
    rw [List.map_reverse, List.nodup_reverse]
    exact nodup_known (h.ids f frame hframe).wellNumbered (h.names f frame hframe)
      fun slot hslot => h.held f frame slot.1 slot.2 hframe hslot
  funext n
  ext c
  rw [resolver_eq_some_iff h hframe, resolverOf_eq_lookup]
  constructor
  · rintro ⟨name, col, hslot, hcol, hid⟩
    refine lookup_eq_some_of_mem hnodup (List.mem_reverse.2 (mem_known.2 ?_))
    exact ⟨List.mem_map_of_mem hslot, col, hcol, hid⟩
  · intro hfound
    obtain ⟨hc, col, hcol, hid⟩ := mem_known.1 (List.mem_reverse.1 (mem_of_lookup_eq_some hfound))
    obtain ⟨⟨name, d⟩, hslot, rfl⟩ := List.mem_map.1 hc
    exact ⟨name, col, hslot, hcol, hid⟩

end EventModel.Store
