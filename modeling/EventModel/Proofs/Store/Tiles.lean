import EventModel.Proofs.Store.Rebuilt

/-!
# Windows that tile a column

Flattening writes the elements of the objects of a collection one after the other into a column, and
each record keeps the window of its own elements. Such windows tile the column: they select the
segments that were written, and they pass the verification of a reader. Conversely, windows that
pass the verification tile the column (`tiles_of_checkPartition`).
-/

namespace EventModel

variable {α : Type}

/-- The windows select the segments of a column that stand one after the other from `start` on. -/
inductive Tiles : Nat → List (Window × List α) → Prop
  | nil (start : Nat) : Tiles start []
  | cons {start : Nat} {w : Window} {segment : List α} {rest : List (Window × List α)}
      (hstart : w.start.toNat = start) (hstop : w.stop.toNat = start + segment.length)
      (hrest : Tiles (start + segment.length) rest) : Tiles start ((w, segment) :: rest)

/-- The column that the segments make up. -/
def columnOf (entries : List (Window × List α)) : List α :=
  entries.flatMap (·.2)

theorem columnOf_cons (entry : Window × List α) (entries : List (Window × List α)) :
    columnOf (entry :: entries) = entry.2 ++ columnOf entries :=
  List.flatMap_cons

theorem Window.ofExtent_eq_ok_iff {start count : Nat} {w : Window} :
    Window.ofExtent start count = .ok w ↔
      start + count < columnLimit ∧ w = ⟨UInt32.ofNat start, UInt32.ofNat (start + count)⟩ := by
  unfold Window.ofExtent columnOffset
  by_cases hstop : start + count < columnLimit
  · have hstart : start < columnLimit := Nat.lt_of_le_of_lt (Nat.le_add_right start count) hstop
    simp only [if_pos hstart, if_pos hstop]
    constructor
    · intro h
      exact ⟨hstop, (Except.ok.inj h).symm⟩
    · rintro ⟨-, rfl⟩
      rfl
  · constructor
    · intro h
      split at h <;> cases h
    · rintro ⟨h, -⟩
      exact absurd h hstop

/-- The window of an extent has the bounds of the extent. -/
theorem Window.bounds_of_ofExtent {start count : Nat} {w : Window}
    (h : Window.ofExtent start count = .ok w) :
    w.start.toNat = start ∧ w.stop.toNat = start + count := by
  rcases Window.ofExtent_eq_ok_iff.1 h with ⟨hstop, rfl⟩
  have hlimit : columnLimit = 2 ^ 32 := rfl
  have hstart : start < columnLimit := by omega
  exact ⟨UInt32.toNat_ofNat_of_lt' hstart, UInt32.toNat_ofNat_of_lt' hstop⟩

namespace Tiles

/-- Each window fits into every column that the segments lie in. -/
theorem fits {start n : Nat} {entries : List (Window × List α)} (h : Tiles start entries)
    (hn : start + (columnOf entries).length ≤ n) : ∀ entry ∈ entries, entry.1.Fits n := by
  induction h with
  | nil => simp
  | @cons start w segment rest hstart hstop _ ih =>
    have hlength : (columnOf ((w, segment) :: rest)).length =
        segment.length + (columnOf rest).length := by
      simp [columnOf_cons]
    intro entry hentry
    rcases List.mem_cons.1 hentry with rfl | hrest
    · change w.start.toNat ≤ w.stop.toNat ∧ w.stop.toNat ≤ n
      omega
    · exact ih (by omega) entry hrest

/-- The segments end where positions in a column still can. -/
theorem length_lt {start : Nat} {entries : List (Window × List α)} (h : Tiles start entries)
    (hstart : start < columnLimit) : start + (columnOf entries).length < columnLimit := by
  induction h with
  | nil start => exact hstart
  | @cons start w segment rest _ hstop _ ih =>
    have hnext : start + segment.length < columnLimit := hstop ▸ w.stop.toNat_lt
    rw [columnOf_cons, List.length_append, ← Nat.add_assoc]
    exact ih hnext

/-- Each window selects its segment. -/
theorem slice {front : List α} {entries : List (Window × List α)}
    (h : Tiles front.length entries) :
    ∀ entry ∈ entries, entry.1.slice (front ++ columnOf entries) = .ok entry.2 := by
  generalize hstart : front.length = start at h
  -- on the windows that are left; `front` is what those before them select
  induction h generalizing front with
  | nil => simp
  | @cons start w segment rest hfirst hlast hrest ih =>
    have htiles : Tiles start ((w, segment) :: rest) := .cons hfirst hlast hrest
    have hcolumn : front ++ columnOf ((w, segment) :: rest) =
        (front ++ segment) ++ columnOf rest := by
      simp [columnOf_cons]
    intro entry hentry
    rcases List.mem_cons.1 hentry with rfl | hmem
    · have hfits : w.Fits (front ++ columnOf ((w, segment) :: rest)).length := by
        refine htiles.fits ?_ (w, segment) List.mem_cons_self
        simp [hstart]
      have hchecked := Window.checked_eq_ok_iff.2 ⟨hfits, rfl⟩
      refine bind_eq_ok_iff.2 ⟨_, hchecked, congrArg Except.ok ?_⟩
      have hdrop : (front ++ columnOf ((w, segment) :: rest)).drop w.start.toNat =
          segment ++ columnOf rest := by
        rw [hfirst, ← hstart, List.drop_left, columnOf_cons]
      have hcount : w.stop.toNat - w.start.toNat = segment.length := by omega
      calc
        ((front ++ columnOf ((w, segment) :: rest)).drop w.start.toNat).take
              (w.stop.toNat - w.start.toNat)
          = (segment ++ columnOf rest).take segment.length := by rw [hdrop, hcount]
        _ = segment := List.take_left
    · have hselected := @ih (front ++ segment) (by simp [hstart]) entry hmem
      rwa [← hcolumn] at hselected

/-- The windows pass the verification of a reader. -/
theorem checkPartition {start : Nat} {entries : List (Window × List α)} (h : Tiles start entries)
    (type : String) (column position : Nat) :
    checkPartition.go type column (start + (columnOf entries).length) position start
      (entries.map (·.1)) = .ok () := by
  induction h generalizing position with
  | nil start => simp [checkPartition.go, columnOf]
  | @cons start w segment rest hstart hstop _ ih =>
    have hordered : w.start ≤ w.stop := UInt32.le_iff_toNat_le.2 (by omega)
    have hlength : start + (columnOf ((w, segment) :: rest)).length =
        start + segment.length + (columnOf rest).length := by
      simp [columnOf_cons, Nat.add_assoc]
    rw [List.map_cons, checkPartition.go, if_pos ⟨hstart, hordered⟩, hlength, hstop]
    exact ih (position + 1)

end Tiles

theorem checkPartition_of_tiles {entries : List (Window × List α)} (h : Tiles 0 entries)
    (type : String) (column : Nat) :
    checkPartition type column (entries.map (·.1)) (columnOf entries).length = .ok () := by
  have hchecked := h.checkPartition type column 0
  rwa [Nat.zero_add] at hchecked

/-! ## Windows that were verified -/

/-- The elements of a column between the bounds of a window. -/
def Window.segment (w : Window) (column : List α) : List α :=
  (column.drop w.start.toNat).take (w.stop.toNat - w.start.toNat)

theorem Window.length_segment {w : Window} {column : List α} (h : w.Fits column.length) :
    (w.segment column).length = w.size := by
  rcases h with ⟨hle, hlt⟩
  rw [segment, List.length_take, List.length_drop, size]
  omega

theorem Window.slice_eq_ok_iff {w : Window} {column segment : List α} :
    w.slice column = .ok segment ↔ w.Fits column.length ∧ segment = w.segment column := by
  unfold Window.slice
  constructor
  · intro h
    rcases bind_eq_ok_iff.1 h with ⟨bounds, hbounds, hsegment⟩
    rcases Window.checked_eq_ok_iff.1 hbounds with ⟨hfits, rfl⟩
    exact ⟨hfits, (Except.ok.inj hsegment).symm⟩
  · rintro ⟨hfits, rfl⟩
    exact bind_eq_ok_iff.2 ⟨_, Window.checked_eq_ok_iff.2 ⟨hfits, rfl⟩, rfl⟩

/-- The windows with the segments that they select. -/
def segmentsOf (windows : List Window) (column : List α) : List (Window × List α) :=
  windows.map fun w => (w, w.segment column)

/-- The windows that are verified from an element on tile the rest of the column. -/
theorem tiles_of_checkPartition_go {type : String} {i position start : Nat}
    {windows : List Window} {column : List α}
    (h : checkPartition.go type i column.length position start windows = .ok ()) :
    start ≤ column.length ∧ Tiles start (segmentsOf windows column) ∧
      columnOf (segmentsOf windows column) = column.drop start := by
  -- on the windows that are left: the next one starts where the last one stopped
  induction windows generalizing position start with
  | nil =>
    unfold checkPartition.go at h
    split at h
    · rename_i hlength
      refine ⟨Nat.le_of_eq hlength, .nil start, ?_⟩
      rw [hlength, List.drop_length]
      rfl
    · cases h
  | cons w rest ih =>
    unfold checkPartition.go at h
    split at h
    · rename_i hnext
      rcases hnext with ⟨rfl, hordered⟩
      have hle : w.start.toNat ≤ w.stop.toNat := UInt32.le_iff_toNat_le.1 hordered
      rcases ih h with ⟨hstop, htiles, hcolumn⟩
      have hlength : (w.segment column).length = w.stop.toNat - w.start.toNat := by
        rw [Window.segment, List.length_take, List.length_drop]
        omega
      have hend : w.start.toNat + (w.segment column).length = w.stop.toNat := by omega
      refine ⟨by omega, .cons rfl hend.symm (hend ▸ htiles), ?_⟩
      calc
        columnOf (segmentsOf (w :: rest) column)
          = w.segment column ++ column.drop w.stop.toNat := by
            rw [segmentsOf, List.map_cons, columnOf_cons, ← hcolumn]
            rfl
        _ = w.segment column ++ (column.drop w.start.toNat).drop
              (w.stop.toNat - w.start.toNat) := by
            rw [List.drop_drop, Nat.add_sub_cancel' hle]
        _ = column.drop w.start.toNat := List.take_append_drop _ _
    · cases h

/-- Windows that are verified tile the column, and their segments make it up. -/
theorem tiles_of_checkPartition {type : String} {i : Nat} {windows : List Window} {column : List α}
    (h : checkPartition type i windows column.length = .ok ()) :
    Tiles 0 (segmentsOf windows column) ∧ columnOf (segmentsOf windows column) = column :=
  (tiles_of_checkPartition_go h).2

end EventModel
