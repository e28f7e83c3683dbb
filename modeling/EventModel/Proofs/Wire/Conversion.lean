import EventModel.Proofs.IdTable
import EventModel.Proofs.Wire.Body

/-!
# Flat frames and bodies

A flat frame can be stored if its id table is one that the operations make, its parameters are sorted
and its sizes are words. Such a frame comes back from its body.
Whatever body fits, the frame that it stands for can be stored again.
-/

namespace EventModel

open Wire

/-- The parameters with quiet numbers of single precision. -/
def Parameters.quiet (p : Parameters) : Parameters :=
  { p with floats := p.floats.map fun entry => (entry.1, entry.2.map Binary32.quiet) }

/-- No number of single precision is a signalling NaN. -/
def Parameters.IsQuiet (p : Parameters) : Prop :=
  ∀ entry ∈ p.floats, ∀ x ∈ entry.2, x.isSignalling = false

instance (p : Parameters) : Decidable p.IsQuiet :=
  inferInstanceAs (Decidable (∀ entry ∈ p.floats, ∀ x ∈ entry.2, _))

theorem Parameters.quiet_eq_self {p : Parameters} (h : p.IsQuiet) : p.quiet = p := by
  have hfloats : (p.floats.map fun entry => (entry.1, entry.2.map Binary32.quiet)) =
      p.floats.map id := by
    refine List.map_congr_left ?_
    intro entry hentry
    have hvalues : entry.2.map Binary32.quiet = entry.2.map id := List.map_congr_left fun x hx =>
      Binary32.quiet_of_not_isSignalling (h entry hentry x hx)
    rw [hvalues, List.map_id]
    rfl
  unfold Parameters.quiet
  rw [hfloats, List.map_id]

theorem Parameters.IsSorted.quiet {p : Parameters} (h : p.IsSorted) : p.quiet.IsSorted := by
  intro k
  cases k with
  | float => exact List.pairwise_map.2 (h .float)
  | int => exact h .int
  | double => exact h .double
  | string => exact h .string

namespace FrameData

/-- The flat frame with quiet parameters. -/
def quiet (d : FrameData) : FrameData :=
  { d with parameters := d.parameters.quiet }

/-- What a flat frame has to be to come back from a stream. -/
structure Storable (d : FrameData) : Prop where
  built : d.ids.Built
  sorted : d.parameters.IsSorted
  fits : (FrameBody.ofData d).Fits

theorem quiet_eq_self {d : FrameData} (h : d.parameters.IsQuiet) : d.quiet = d := by
  unfold quiet
  rw [Parameters.quiet_eq_self h]

end FrameData

namespace Wire

/-! ## Columns and collections -/

theorem toRaw_ofRaw {raw : RawBytes} (hfits : (ColumnBody.ofRaw raw).Fits) :
    (ColumnBody.ofRaw raw).toRaw = .ok raw := by
  have hlength := raw.length_data
  have hword : ¬ RawBytes.sizeLimit ≤ raw.stride * raw.count := by
    have hdata : raw.data.length < 2 ^ 64 := hfits.data
    rw [hlength] at hdata
    exact Nat.not_le.2 hdata
  change RawBytes.ofParts raw.data raw.stride raw.count = _
  unfold RawBytes.ofParts
  rw [if_neg hword, dif_pos hlength]

/-- A column that is accepted is the one that was written. -/
theorem ofRaw_of_toRaw {c : ColumnBody} {raw : RawBytes} (h : c.toRaw = .ok raw) :
    ColumnBody.ofRaw raw = c := by
  unfold ColumnBody.toRaw RawBytes.ofParts at h
  split at h
  case isTrue => cases h
  case isFalse =>
    split at h
    case isTrue =>
      cases h
      rfl
    case isFalse => cases h

theorem mapM_toRaw_ofRaw {columns : List RawBytes}
    (hfits : ListFits ColumnBody.Fits (columns.map ColumnBody.ofRaw)) :
    (columns.map ColumnBody.ofRaw).mapM ColumnBody.toRaw = .ok columns := by
  refine mapM_eq_ok_iff.2 (List.forall₂_map_left_iff.2 (List.forall₂_same.2 ?_))
  intro raw hraw
  exact toRaw_ofRaw (hfits.2 _ (List.mem_map_of_mem hraw))

theorem map_ofRaw_of_mapM {columns : List ColumnBody} {raws : List RawBytes}
    (h : columns.mapM ColumnBody.toRaw = .ok raws) : raws.map ColumnBody.ofRaw = columns := by
  have hpairs := mapM_eq_ok_iff.1 h
  induction hpairs with
  | nil => rfl
  | cons hhead htail ih =>
    rw [List.map_cons, ofRaw_of_toRaw hhead, ih (mapM_eq_ok_iff.2 htail)]

theorem toBuffers_ofBuffers {name : String} {b : Buffers}
    (hfits : (CollectionBody.ofBuffers name b).Fits) :
    (CollectionBody.ofBuffers name b).toBuffers = .ok (name, b) := by
  have hrelations := mapM_toRaw_ofRaw hfits.relations
  have hmembers := mapM_toRaw_ofRaw hfits.members
  have hrecords := toRaw_ofRaw hfits.records
  exact bind_eq_ok_iff.2 ⟨_, hrelations, bind_eq_ok_iff.2 ⟨_, hmembers,
    bind_eq_ok_iff.2 ⟨_, hrecords, rfl⟩⟩⟩

theorem ofBuffers_of_toBuffers {c : CollectionBody} {entry : String × Buffers}
    (h : c.toBuffers = .ok entry) : CollectionBody.ofBuffers entry.1 entry.2 = c := by
  rcases bind_eq_ok_iff.1 h with ⟨relations, hrelations, hrest⟩
  rcases bind_eq_ok_iff.1 hrest with ⟨members, hmembers, hlast⟩
  rcases bind_eq_ok_iff.1 hlast with ⟨records, hrecords, heq⟩
  cases heq
  unfold CollectionBody.ofBuffers
  dsimp only
  rw [map_ofRaw_of_mapM hrelations, map_ofRaw_of_mapM hmembers, ofRaw_of_toRaw hrecords]

/-! ## Parameters -/

theorem insertAll_entries (k : ParameterKind) (entries : List (String × List k.Value))
    (p : Parameters) :
    (insertAll k entries p).entries k = ParameterEntries.insertEach entries (p.entries k) := by
  induction entries generalizing p with
  | nil => rfl
  | cons entry rest ih =>
    have hstep := ih (p.set k entry.1 entry.2)
    rw [p.entries_set_self] at hstep
    exact hstep

theorem insertAll_entries_of_ne {k other : ParameterKind} (hne : other ≠ k)
    (entries : List (String × List k.Value)) (p : Parameters) :
    (insertAll k entries p).entries other = p.entries other := by
  induction entries generalizing p with
  | nil => rfl
  | cons entry rest ih =>
    have hstep := ih (p.set k entry.1 entry.2)
    rw [p.entries_set_of_ne hne] at hstep
    exact hstep

/-- The written entries of a kind. -/
def ParameterBody.entries (b : ParameterBody) : (k : ParameterKind) → ParameterEntries k
  | .int => b.ints
  | .float => b.floats
  | .double => b.doubles
  | .string => b.strings

/-- The store has the entries of each kind, stored one after the other. -/
theorem entries_toParameters (b : ParameterBody) (k : ParameterKind) :
    b.toParameters.entries k = ParameterEntries.insertEach (b.entries k) [] := by
  unfold ParameterBody.toParameters
  cases k with
  | int =>
    rw [insertAll_entries_of_ne (by simp), insertAll_entries_of_ne (by simp),
      insertAll_entries_of_ne (by simp), insertAll_entries]
    rfl
  | float =>
    rw [insertAll_entries_of_ne (by simp), insertAll_entries_of_ne (by simp), insertAll_entries,
      insertAll_entries_of_ne (by simp)]
    rfl
  | double =>
    rw [insertAll_entries_of_ne (by simp), insertAll_entries, insertAll_entries_of_ne (by simp),
      insertAll_entries_of_ne (by simp)]
    rfl
  | string =>
    rw [insertAll_entries, insertAll_entries_of_ne (by simp), insertAll_entries_of_ne (by simp),
      insertAll_entries_of_ne (by simp)]
    rfl

theorem isSorted_toParameters (b : ParameterBody) : b.toParameters.IsSorted := by
  intro k
  rw [entries_toParameters]
  exact ParameterEntries.isSorted_nil.insertEach (b.entries k)

theorem toParameters_ofParameters {p : Parameters} (h : p.IsSorted) :
    (ParameterBody.ofParameters p).toParameters = p := by
  refine Parameters.ext_entries ?_
  intro k
  have hentries : (ParameterBody.ofParameters p).entries k = p.entries k := by cases k <;> rfl
  rw [entries_toParameters, hentries]
  exact ParameterEntries.insertEach_of_isSorted (h k)

/-- Storing entries one after the other makes no new ones. -/
theorem EntriesFit.insertEach {α : Type} {P : α → Prop} {entries : List (String × List α)}
    (hfits : EntriesFit P entries) : EntriesFit P (ParameterEntries.insertEach entries []) := by
  have hlength := ParameterEntries.length_insertEach_le entries ([] : List (String × List α))
  refine ⟨?_, ?_⟩
  · calc
      (ParameterEntries.insertEach entries []).length ≤ 0 + entries.length := hlength
      _ = entries.length := Nat.zero_add _
      _ < 2 ^ 64 := hfits.1
  · intro entry hentry
    rcases ParameterEntries.mem_insertEach hentry with hnew | hold
    · exact hfits.2 entry hnew
    · cases hold

theorem EntriesFit.toParameters {b : ParameterBody} {k : ParameterKind} {P : k.Value → Prop}
    (hfits : EntriesFit P (b.entries k)) : EntriesFit P (b.toParameters.entries k) := by
  rw [entries_toParameters]
  exact hfits.insertEach

theorem ParameterBody.Fits.toParameters {b : ParameterBody} (hfits : b.Fits) :
    (ParameterBody.ofParameters b.toParameters).Fits where
  ints := @EntriesFit.toParameters b .int _ hfits.ints
  floats := @EntriesFit.toParameters b .float _ hfits.floats
  doubles := @EntriesFit.toParameters b .double _ hfits.doubles
  strings := @EntriesFit.toParameters b .string _ hfits.strings

/-- No written number of single precision is a signalling NaN. -/
def ParameterBody.IsQuiet (b : ParameterBody) : Prop :=
  ∀ entry ∈ b.floats, ∀ x ∈ entry.2, x.isSignalling = false

theorem ParameterBody.IsQuiet.toParameters {b : ParameterBody} (hquiet : b.IsQuiet) :
    b.toParameters.IsQuiet := by
  intro entry hentry
  have hmem : entry ∈ ParameterEntries.insertEach b.floats [] :=
    (entries_toParameters b .float : b.toParameters.floats = _) ▸ hentry
  rcases ParameterEntries.mem_insertEach hmem with hnew | hold
  · exact hquiet entry hnew
  · cases hold

/-! ## Frames -/

/-- A flat frame that can be stored comes back from its body. -/
theorem toData_ofData {d : FrameData} (h : d.Storable) :
    (FrameBody.ofData d).quiet.toData = .ok d.quiet := by
  have hids : IdTable.ofPairs d.ids.pairs = .ok d.ids := IdTable.ofPairs_pairs h.built
  have hcollections : (d.collections.map fun entry => CollectionBody.ofBuffers entry.1 entry.2).mapM
      CollectionBody.toBuffers = .ok d.collections := by
    refine mapM_eq_ok_iff.2 (List.forall₂_map_left_iff.2 (List.forall₂_same.2 ?_))
    intro entry hentry
    have hfits : (CollectionBody.ofBuffers entry.1 entry.2).Fits :=
      h.fits.collections.2 _ (List.mem_map_of_mem hentry)
    exact toBuffers_ofBuffers hfits
  have hparameters : (ParameterBody.ofParameters d.parameters.quiet).toParameters =
      d.parameters.quiet := toParameters_ofParameters h.sorted.quiet
  have hdata : FrameData.mk d.ids d.collections
      (ParameterBody.ofParameters d.parameters.quiet).toParameters = d.quiet := by
    rw [hparameters]
    rfl
  exact bind_eq_ok_iff.2 ⟨_, hids, bind_eq_ok_iff.2 ⟨_, hcollections, congrArg Except.ok hdata⟩⟩

/-- What a body that fits stands for can be stored. -/
theorem storable_of_toData {b : FrameBody} {d : FrameData} (hfits : b.Fits)
    (h : b.toData = .ok d) : d.Storable := by
  rcases bind_eq_ok_iff.1 h with ⟨ids, hids, hrest⟩
  rcases bind_eq_ok_iff.1 hrest with ⟨collections, hcollections, heq⟩
  cases heq
  have hwell := (IdTable.wellNumbered_of_ofPairs hids).1
  have hpairs : ids.pairs = b.ids := (IdTable.wellNumbered_of_ofPairs hids).2
  have hbodies : collections.map (fun entry => CollectionBody.ofBuffers entry.1 entry.2) =
      b.collections := by
    have hforall := mapM_eq_ok_iff.1 hcollections
    clear hcollections h hrest
    generalize b.collections = bodies at hforall
    induction hforall with
    | nil => rfl
    | cons hhead _ ih => simp [ofBuffers_of_toBuffers hhead, ih]
  refine ⟨.ofPairs hids, isSorted_toParameters b.parameters, ?_⟩
  constructor
  case ids =>
    change ListFits _ ids.pairs
    exact hpairs ▸ hfits.ids
  case collections =>
    change ListFits _ (collections.map fun entry => CollectionBody.ofBuffers entry.1 entry.2)
    exact hbodies ▸ hfits.collections
  case parameters => exact hfits.parameters.toParameters

theorem parameters_of_toData {b : FrameBody} {d : FrameData} (h : b.toData = .ok d) :
    d.parameters = b.parameters.toParameters := by
  rcases bind_eq_ok_iff.1 h with ⟨ids, _, hrest⟩
  rcases bind_eq_ok_iff.1 hrest with ⟨collections, _, heq⟩
  cases heq
  rfl

end Wire

end EventModel
