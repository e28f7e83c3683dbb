import EventModel.Detector.DataModel
import EventModel.Proofs.Column

/-!
# Where the elements of a column lie

An element takes exactly as many bytes as its shape says, whether it is written or read, and each of
its parts lies at an offset that the shapes alone determine (`Shape.PartAt.decode?`). A column holds its
elements one after the other, so that a part of an element can be read without what stands before it
(`RawBytes.holds_of_decode`). Writing and reading are inverse for columns of every shape, and in the
same sense for the records of every data type (`RawBytes.columns_exact`).
-/

namespace EventModel

namespace Shape

variable {s u : Shape} {bytes rest : Bytes}

/-! ## The bytes that reading takes -/

theorem length_of_takeNumber {α : Type} {f : Nat × Bytes → α × Bytes} {n : Nat} {x : α}
    (h : (takeNumber n bytes).map f = some (x, rest)) (hf : ∀ number, (f number).2 = number.2) :
    n + rest.length = bytes.length := by
  rcases Option.map_eq_some_iff.1 h with ⟨⟨v, rest'⟩, hnumber, heq⟩
  obtain rfl : rest' = rest := (hf (v, rest')).symm.trans (congrArg Prod.snd heq)
  rw [← (takeNumber_eq_some hnumber).2, List.length_append, LittleEndian.length_encode]

theorem length_of_takeVector {α : Type} {read : Bytes → Option (α × Bytes)} {k : Nat}
    (hread : ∀ bytes x rest, read bytes = some (x, rest) → k + rest.length = bytes.length) {n : Nat}
    {xs : Vector α n} (h : takeVector read n bytes = some (xs, rest)) :
    k * n + rest.length = bytes.length := by
  induction n generalizing rest with
  | zero =>
    cases h
    omega
  | succ n ih =>
    rcases Option.bind_eq_some_iff.1 h with ⟨⟨front, middle⟩, hfront, h⟩
    rcases Option.bind_eq_some_iff.1 h with ⟨⟨last, rest'⟩, hlast, h⟩
    cases h
    have hmiddle := ih hfront
    have hrest := hread _ _ _ hlast
    rw [Nat.mul_succ]
    omega

/-- What is read and what is left are all the bytes. -/
theorem length_of_decode? {x : s.Value} (h : s.decode? bytes = some (x, rest)) :
    s.stride + rest.length = bytes.length := by
  -- what the first part of an element leaves is what its second part is read from
  induction s generalizing bytes rest with
  | unit =>
    cases h
    exact Nat.zero_add _
  | objectId =>
    rcases Option.bind_eq_some_iff.1 h with ⟨⟨index, middle⟩, hindex, h⟩
    rcases Option.bind_eq_some_iff.1 h with ⟨⟨number, rest'⟩, hnumber, h⟩
    cases h
    rw [← (takeNumber_eq_some hindex).2, ← (takeNumber_eq_some hnumber).2]
    simp [stride]
    omega
  | window =>
    rcases Option.bind_eq_some_iff.1 h with ⟨⟨start, middle⟩, hstart, h⟩
    rcases Option.bind_eq_some_iff.1 h with ⟨⟨stop, rest'⟩, hstop, h⟩
    cases h
    rw [← (takeNumber_eq_some hstart).2, ← (takeNumber_eq_some hstop).2]
    simp [stride]
    omega
  | array n element ih => exact length_of_takeVector (fun _ _ _ => ih) h
  | pair first second ihFirst ihSecond =>
    rcases Option.bind_eq_some_iff.1 h with ⟨⟨x, middle⟩, hx, h⟩
    rcases Option.bind_eq_some_iff.1 h with ⟨⟨y, rest'⟩, hy, h⟩
    cases h
    have hfirst := ihFirst hx
    have hsecond := ihSecond hy
    rw [stride]
    omega
  | _ => exact length_of_takeNumber h fun _ => rfl

/-- Reading takes the first bytes, as many as the stride. -/
theorem drop_of_decode? {x : s.Value} (h : s.decode? bytes = some (x, rest)) :
    rest = bytes.drop s.stride := by
  have hlength := length_of_decode? h
  rcases decode?_isSome s bytes (by omega) with ⟨y, hy⟩
  cases h.symm.trans hy
  rfl

/-- Reading fails exactly if there are fewer bytes than the stride. -/
theorem decode?_eq_none_iff : s.decode? bytes = none ↔ bytes.length < s.stride := by
  constructor
  · intro hnone
    refine Nat.lt_of_not_le fun hle => ?_
    rcases decode?_isSome s bytes hle with ⟨x, hx⟩
    cases hnone.symm.trans hx
  · intro hlt
    rcases hread : s.decode? bytes with _ | ⟨x, rest⟩
    · rfl
    · have hlength := length_of_decode? hread
      omega

/-! ## Parts of an element -/

/-- The element `x` has the part `v`, which starts `offset` bytes after the element does. -/
inductive PartAt : (s : Shape) → s.Value → Nat → (u : Shape) → u.Value → Prop
  | whole (s : Shape) (x : s.Value) : PartAt s x 0 s x
  | first {first second u : Shape} {x : first.Value} {y : second.Value} {offset : Nat}
      {v : u.Value} (h : PartAt first x offset u v) : PartAt (.pair first second) (x, y) offset u v
  | second {first second u : Shape} {x : first.Value} {y : second.Value} {offset : Nat}
      {v : u.Value} (h : PartAt second y offset u v) :
      PartAt (.pair first second) (x, y) (first.stride + offset) u v
  | element {element u : Shape} {n : Nat} {xs : Vector element.Value n} {offset : Nat}
      {v : u.Value} (i : Nat) (hi : i < n) (h : PartAt element xs[i] offset u v) :
      PartAt (.array n element) xs (element.stride * i + offset) u v

/-- The elements of a vector are read from their own bytes. -/
theorem takeVector_getElem {α : Type} {read : Bytes → Option (α × Bytes)} {k : Nat}
    (hread : ∀ bytes x rest, read bytes = some (x, rest) → rest = bytes.drop k) {n : Nat}
    {xs : Vector α n} (h : takeVector read n bytes = some (xs, rest)) :
    rest = bytes.drop (k * n) ∧
      ∀ i (hi : i < n), read (bytes.drop (k * i)) = some (xs[i], bytes.drop (k * (i + 1))) := by
  induction n generalizing rest with
  | zero =>
    cases h
    exact ⟨rfl, fun i hi => absurd hi (Nat.not_lt_zero i)⟩
  | succ n ih =>
    rcases Option.bind_eq_some_iff.1 h with ⟨⟨front, middle⟩, hfront, h⟩
    rcases Option.bind_eq_some_iff.1 h with ⟨⟨last, rest'⟩, hlast, h⟩
    cases h
    rcases ih hfront with ⟨rfl, hbefore⟩
    have hrest : rest = bytes.drop (k * (n + 1)) := by
      rw [hread _ _ _ hlast, List.drop_drop, Nat.mul_succ]
    refine ⟨hrest, fun i hi => ?_⟩
    rcases Nat.lt_or_eq_of_le (Nat.le_of_lt_succ hi) with hlt | rfl
    · rw [Vector.getElem_push_lt hlt]
      exact hbefore i hlt
    · rw [Vector.getElem_push_eq, hlast, hrest]

/-- A part of an element that is read is what is read at its offset. -/
theorem PartAt.decode? {x : s.Value} {offset : Nat} {v : u.Value} (hpart : s.PartAt x offset u v)
    (h : s.decode? bytes = some (x, rest)) :
    u.decode? (bytes.drop offset) = some (v, bytes.drop (offset + u.stride)) := by
  induction hpart generalizing bytes rest with
  | whole s x =>
    rw [Nat.zero_add, List.drop_zero, h, drop_of_decode? h]
  | first _ ih =>
    rcases Option.bind_eq_some_iff.1 h with ⟨⟨x, middle⟩, hx, h⟩
    rcases Option.bind_eq_some_iff.1 h with ⟨⟨y, rest'⟩, hy, h⟩
    cases h
    exact ih hx
  | second _ ih =>
    rcases Option.bind_eq_some_iff.1 h with ⟨⟨x, middle⟩, hx, h⟩
    rcases Option.bind_eq_some_iff.1 h with ⟨⟨y, rest'⟩, hy, h⟩
    cases h
    -- the second part starts where the stride of the first one ends
    have hpart := ih hy
    rwa [drop_of_decode? hx, List.drop_drop, List.drop_drop, ← Nat.add_assoc] at hpart
  | element i hi _ ih =>
    have helement := (takeVector_getElem (fun _ _ _ => drop_of_decode?) h).2 i hi
    have hpart := ih helement
    rwa [List.drop_drop, List.drop_drop, ← Nat.add_assoc] at hpart

/-- An element takes the bytes of its stride, no more and no less, and is read as it was written. -/
structure TakesStride (s : Shape) : Prop where
  written : ∀ x : s.Value, (s.encode x).length = s.stride
  taken : ∀ bytes, s.stride ≤ bytes.length →
    ∃ x, s.decode? bytes = some (x, bytes.drop s.stride)
  short : ∀ bytes, s.decode? bytes = none ↔ bytes.length < s.stride
  read : ∀ (x : s.Value) rest, s.decode? (s.encode x ++ rest) = some (x, rest)

theorem takesStride (s : Shape) : s.TakesStride where
  written := length_encode s
  taken := decode?_isSome s
  short _ := decode?_eq_none_iff
  read := decode?_encode s

-- the fields of a hit start where those before them end
example (cell : UInt64) (energy : Binary64) (time : Binary32) :
    PartAt Detector.hit.payload (cell, energy, time) 16 .f32 time := by
  have hlast : PartAt (.pair .f64 .f32) (energy, time) (8 + 0) .f32 time := .second (.whole .f32 time)
  exact .second hlast

end Shape

/-! ## Columns -/

namespace RawBytes

variable {s : Shape} {raw : RawBytes} {items : List s.Value}

/-- The elements that are read lie one after the other. -/
theorem readItems_getElem {n : Nat} {bytes : Bytes} (h : readItems s n bytes = some items) (i : Nat)
    (hi : i < items.length) :
    s.decode? (bytes.drop (s.stride * i)) =
      some (items[i], bytes.drop (s.stride * (i + 1))) := by
  have hshift : ∀ j, s.stride + s.stride * j = s.stride * (j + 1) := fun j => by
    rw [Nat.mul_succ, Nat.add_comm]
  induction n generalizing bytes items i with
  | zero =>
    cases h
    exact absurd hi (Nat.not_lt_zero i)
  | succ n ih =>
    unfold readItems at h
    split at h
    · cases h
    · rename_i x middle hx
      rcases Option.map_eq_some_iff.1 h with ⟨others, hothers, rfl⟩
      have hmiddle := Shape.drop_of_decode? hx
      cases i with
      | zero =>
        rw [Nat.mul_zero, List.drop_zero, hx, hmiddle, Nat.zero_add, Nat.mul_one]
        rfl
      | succ i =>
        -- the other elements are read from the bytes that the first one leaves
        have hnext := ih hothers i (Nat.lt_of_succ_lt_succ hi)
        rwa [hmiddle, List.drop_drop, List.drop_drop, hshift, hshift] at hnext

/-- The column holds the elements one after the other, and every part of an element at its offset. -/
structure Holds (raw : RawBytes) (s : Shape) (items : List s.Value) : Prop where
  stride : raw.stride = s.stride
  count : raw.count = items.length
  parts : ∀ i (hi : i < items.length) offset (u : Shape) (v : u.Value),
    s.PartAt items[i] offset u v →
      u.decode? (raw.data.drop (s.stride * i + offset)) =
        some (v, raw.data.drop (s.stride * i + offset + u.stride))

/-- A column of the right stride holds what is read from it. -/
theorem holds_of_decode (h : raw.decode s = .ok items) : raw.Holds s items where
  stride := (decode_eq_ok_iff.1 h).1
  count := (length_of_decode h).symm
  parts i hi offset u v hpart := by
    rcases decode_eq_ok_iff.1 h with ⟨hstride, rfl⟩
    have hread : readItems s raw.count raw.data = some (raw.items s hstride) :=
      (Option.some_get _).symm
    have hdecode := hpart.decode? (readItems_getElem hread i hi)
    rwa [List.drop_drop, List.drop_drop, ← Nat.add_assoc] at hdecode

/-- Columns of the shape come back as they were written, and whatever is stored with the stride of the
shape is read to the end. It is written again to the same bytes unless a truth value is in it. -/
structure IsExact (s : Shape) (decode : RawBytes → Except Error (List s.Value)) : Prop where
  encoded : ∀ items, (encode s items).stride = s.stride ∧ (encode s items).count = items.length ∧
    (encode s items).data.length = s.stride * items.length ∧ decode (encode s items) = .ok items
  stored : ∀ data count raw, ofParts data s.stride count = .ok raw →
    raw.data = data ∧ raw.count = count ∧ ∃ items, decode raw = .ok items ∧ raw.Holds s items ∧
      (s.hasBool = false → encode s items = raw)

theorem ofParts_eq_ok {data : Bytes} {stride count : Nat} (h : ofParts data stride count = .ok raw) :
    raw.data = data ∧ raw.stride = stride ∧ raw.count = count := by
  unfold ofParts at h
  split at h
  · cases h
  · split at h
    · cases h
      exact ⟨rfl, rfl, rfl⟩
    · cases h

/-- All readers that read what `decode` reads are exact. -/
theorem isExact_of_forall {decode' : RawBytes → Except Error (List s.Value)}
    (h : ∀ raw items, decode' raw = .ok items ↔ raw.decode s = .ok items) : IsExact s decode' where
  encoded items := ⟨rfl, rfl, (encode s items).length_data, (h _ _).2 (decode_encode s items)⟩
  stored data count raw hparts := by
    rcases ofParts_eq_ok hparts with ⟨hdata, hstride, hcount⟩
    rcases exists_decode_iff.2 hstride with ⟨items, hitems⟩
    exact ⟨hdata, hcount, items, (h raw items).2 hitems, holds_of_decode hitems,
      fun hs => encode_of_decode hs hitems⟩

end RawBytes

/-! ## Records -/

namespace Record

variable {t : DataType}

/-- A record starts with the payload, and the windows follow it in order. -/
structure LaidOut (r : Record t) : Prop where
  payload : t.record.PartAt r 0 t.payload r.payload
  windows : ∀ i (hi : i < t.windows),
    t.record.PartAt r (t.payload.stride + 8 * i) .window r.windows[i]

theorem laidOut (r : Record t) : r.LaidOut where
  payload := .first (.whole t.payload r.payload)
  windows i hi := by
    have hwindow : (Shape.array t.windows .window).PartAt r.windows (8 * i + 0) .window
        r.windows[i] := .element i hi (.whole .window r.windows[i])
    exact .second hwindow

end Record

namespace RawBytes

/-- For every shape, an element takes exactly as many bytes as its stride, columns are read as they
were written, and whatever is stored with this stride is read to the end, each part of each element at
its own offset, and written again as it was, unless the shape has truth values. The same holds for the
records of every data type, whose stride is that of the payload and of one window for each to-many
relation and each member. -/
theorem columns_exact :
    (∀ s : Shape, s.TakesStride ∧ IsExact s (decode s)) ∧
      ∀ t : DataType, IsExact t.record (Record.decodeAll t) ∧ (∀ r : Record t, r.LaidOut) ∧
        t.record.stride = t.payload.stride + (t.toMany.length + t.members.length) * 8 ∧
        t.record.hasBool = t.payload.hasBool := by
  refine ⟨fun s => ⟨s.takesStride, isExact_of_forall fun _ _ => .rfl⟩, fun t => ?_⟩
  exact ⟨isExact_of_forall fun _ _ => Record.decodeAll_eq_ok_iff, Record.laidOut, t.stride_eq,
    Bool.or_false _⟩

/-- A hit whose time is a signalling NaN. -/
def hitColumn : RawBytes :=
  ⟨[9, 0, 0, 0, 0, 0, 0, 0, 0, 0, 0, 0, 0, 0, 0xf4, 0x3f, 0, 0, 0xa0, 0x7f], 20, 1, rfl⟩

/-- Three elements without bytes. -/
def unitColumn : RawBytes :=
  encode .unit [(), (), ()]

theorem columns_exact_hitColumn :
    (ofParts hitColumn.data 20 1 = .ok hitColumn ∧
      ∃ hits, hitColumn.decode Detector.hit.payload = .ok hits ∧
        hitColumn.Holds Detector.hit.payload hits ∧
        encode Detector.hit.payload hits = hitColumn) ∧
      (ofParts [] 0 3 = .ok unitColumn ∧
        ∃ units, unitColumn.decode .unit = .ok units ∧ units.length = 3) ∧
      ∃ records : List (Record Detector.hit), Record.decodeAll Detector.hit hitColumn = .ok records ∧
        encode Detector.hit.record records = hitColumn := by
  rcases columns_exact with ⟨hshapes, htypes⟩
  have hhit : ofParts hitColumn.data 20 1 = .ok hitColumn := rfl
  have hunit : ofParts [] 0 3 = .ok unitColumn := rfl
  rcases (hshapes Detector.hit.payload).2.stored _ 1 _ hhit with ⟨-, -, hits, hdecode, hholds, hback⟩
  rcases (hshapes .unit).2.stored [] 3 _ hunit with ⟨-, -, units, hunits, hcounted, -⟩
  rcases (htypes Detector.hit).1.stored _ 1 _ hhit with ⟨-, -, records, hrecords, -, hagain⟩
  exact ⟨⟨hhit, hits, hdecode, hholds, hback rfl⟩, ⟨hunit, units, hunits, hcounted.count.symm⟩,
    records, hrecords, hagain rfl⟩

-- any byte but zero is read as true, and true is written as one
example : (⟨[2], 1, 1, rfl⟩ : RawBytes).decode .bool = .ok [true] ∧
    (encode .bool [true]).data = [1] :=
  ⟨rfl, rfl⟩

end RawBytes
end EventModel
