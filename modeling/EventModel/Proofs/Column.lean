import EventModel.DataType
import Mathlib.Tactic.Common

/-!
# Columns that are written as they were read

Reading a truth value keeps only whether its byte is zero. Every other shape keeps all that it read:
`Shape.encode_of_decode?` states that an element without truth values is written to the bytes that it
was read from, and `RawBytes.encode_items` that a whole column is. A column can be read exactly if its
stride is that of the shape (`RawBytes.exists_decode_iff`).
-/

namespace EventModel

namespace Shape

/-- Some part of an element is a truth value. -/
def hasBool : Shape → Bool
  | bool => true
  | array _ element => element.hasBool
  | pair first second => first.hasBool || second.hasBool
  | _ => false

/-! ## Numbers -/

theorem takeNumber_eq_some {n v : Nat} {bytes rest : Bytes}
    (h : takeNumber n bytes = some (v, rest)) :
    v < 256 ^ n ∧ LittleEndian.encode n v ++ rest = bytes := by
  unfold takeNumber at h
  split at h
  · rename_i hlength
    cases h
    have hlt := LittleEndian.value_lt (bytes.take n)
    have hencode := LittleEndian.encode_value (bytes.take n)
    rw [hlength] at hlt hencode
    exact ⟨hlt, by rw [hencode, List.take_append_drop]⟩
  · cases h

/-- A word that is read from as many bytes as it has is written to the same bytes. -/
theorem encode_of_takeNumber {α : Type} (ofNat : Nat → α) (toNat : α → Nat) {n : Nat}
    (hword : ∀ v, v < 256 ^ n → toNat (ofNat v) = v) {bytes rest : Bytes} {x : α}
    (h : (takeNumber n bytes).map (fun (v, rest) => (ofNat v, rest)) = some (x, rest)) :
    LittleEndian.encode n (toNat x) ++ rest = bytes := by
  rcases Option.map_eq_some_iff.1 h with ⟨⟨v, rest'⟩, hnumber, heq⟩
  cases heq
  rcases takeNumber_eq_some hnumber with ⟨hlt, hbytes⟩
  rw [hword v hlt, hbytes]

/-! ## Elements -/

theorem encode_of_takeVector {α : Type} {read : Bytes → Option (α × Bytes)} {encode : α → Bytes}
    (hread : ∀ bytes x rest, read bytes = some (x, rest) → encode x ++ rest = bytes) {n : Nat}
    {bytes rest : Bytes} {xs : Vector α n} (h : takeVector read n bytes = some (xs, rest)) :
    xs.toList.flatMap encode ++ rest = bytes := by
  induction n generalizing rest with
  | zero =>
    cases h
    rfl
  | succ n ih =>
    rcases Option.bind_eq_some_iff.1 h with ⟨⟨front, middle⟩, hfront, h⟩
    rcases Option.bind_eq_some_iff.1 h with ⟨⟨last, rest'⟩, hlast, h⟩
    cases h
    rw [Vector.toList_push, List.flatMap_append, List.append_assoc, List.flatMap_singleton,
      hread _ _ _ hlast, ih hfront]

/-- An element without truth values is written to the bytes that it was read from. -/
theorem encode_of_decode? {s : Shape} (hs : s.hasBool = false) {bytes rest : Bytes} {x : s.Value}
    (h : s.decode? bytes = some (x, rest)) : s.encode x ++ rest = bytes := by
  induction s generalizing bytes rest with
  | u8 =>
    exact encode_of_takeNumber UInt8.ofNat UInt8.toNat (fun _ => UInt8.toNat_ofNat_of_lt') h
  | u16 =>
    exact encode_of_takeNumber UInt16.ofNat UInt16.toNat (fun _ => UInt16.toNat_ofNat_of_lt') h
  | u32 =>
    exact encode_of_takeNumber UInt32.ofNat UInt32.toNat (fun _ => UInt32.toNat_ofNat_of_lt') h
  | u64 =>
    exact encode_of_takeNumber UInt64.ofNat UInt64.toNat (fun _ => UInt64.toNat_ofNat_of_lt') h
  | i8 =>
    exact encode_of_takeNumber (fun v => (UInt8.ofNat v).toInt8)
      (fun x => (Int8.toUInt8 x).toNat) (fun _ => UInt8.toNat_ofNat_of_lt') h
  | i16 =>
    exact encode_of_takeNumber (fun v => (UInt16.ofNat v).toInt16)
      (fun x => (Int16.toUInt16 x).toNat) (fun _ => UInt16.toNat_ofNat_of_lt') h
  | i32 =>
    exact encode_of_takeNumber (fun v => (UInt32.ofNat v).toInt32)
      (fun x => (Int32.toUInt32 x).toNat) (fun _ => UInt32.toNat_ofNat_of_lt') h
  | i64 =>
    exact encode_of_takeNumber (fun v => (UInt64.ofNat v).toInt64)
      (fun x => (Int64.toUInt64 x).toNat) (fun _ => UInt64.toNat_ofNat_of_lt') h
  | f32 =>
    exact encode_of_takeNumber (fun v => Binary32.mk (UInt32.ofNat v))
      (fun x => (Binary32.bits x).toNat) (fun _ => UInt32.toNat_ofNat_of_lt') h
  | f64 =>
    exact encode_of_takeNumber (fun v => Binary64.mk (UInt64.ofNat v))
      (fun x => (Binary64.bits x).toNat) (fun _ => UInt64.toNat_ofNat_of_lt') h
  | bool => cases hs
  | unit =>
    cases h
    rfl
  -- the parts of a composite element are read one after the other
  | objectId =>
    rcases Option.bind_eq_some_iff.1 h with ⟨⟨index, middle⟩, hindex, h⟩
    rcases Option.bind_eq_some_iff.1 h with ⟨⟨number, rest'⟩, hnumber, h⟩
    cases h
    rcases takeNumber_eq_some hindex with ⟨hlt, hbytes⟩
    rcases takeNumber_eq_some hnumber with ⟨hlt', hbytes'⟩
    dsimp only [encode]
    rw [UInt64.toUInt64_toInt64, UInt64.toNat_ofNat_of_lt' hlt, UInt32.toNat_ofNat_of_lt' hlt',
      List.append_assoc, hbytes', hbytes]
  | window =>
    rcases Option.bind_eq_some_iff.1 h with ⟨⟨start, middle⟩, hstart, h⟩
    rcases Option.bind_eq_some_iff.1 h with ⟨⟨stop, rest'⟩, hstop, h⟩
    cases h
    rcases takeNumber_eq_some hstart with ⟨hlt, hbytes⟩
    rcases takeNumber_eq_some hstop with ⟨hlt', hbytes'⟩
    dsimp only [encode]
    rw [UInt32.toNat_ofNat_of_lt' hlt, UInt32.toNat_ofNat_of_lt' hlt', List.append_assoc, hbytes',
      hbytes]
  | array n element ih => exact encode_of_takeVector (fun _ _ _ => ih hs) h
  | pair first second ihFirst ihSecond =>
    rcases Bool.or_eq_false_iff.1 hs with ⟨hfirst, hsecond⟩
    rcases Option.bind_eq_some_iff.1 h with ⟨⟨x, middle⟩, hx, h⟩
    rcases Option.bind_eq_some_iff.1 h with ⟨⟨y, rest'⟩, hy, h⟩
    cases h
    dsimp only [encode]
    rw [List.append_assoc, ihSecond hsecond hy, ihFirst hfirst hx]

end Shape

namespace RawBytes

/-! ## Whole columns -/

theorem length_items (s : Shape) (raw : RawBytes) (h : raw.stride = s.stride) :
    (raw.items s h).length = raw.count := by
  have hbytes : s.stride * raw.count ≤ raw.data.length :=
    Nat.le_of_eq (by rw [raw.length_data, h])
  rcases readItems_isSome s raw.count raw.data hbytes with ⟨xs, hxs, hlength⟩
  have hread : readItems s raw.count raw.data = some (raw.items s h) := (Option.some_get _).symm
  cases hxs.symm.trans hread
  exact hlength

theorem decode_eq_ok_iff {s : Shape} {raw : RawBytes} {items : List s.Value} :
    raw.decode s = .ok items ↔ ∃ h : raw.stride = s.stride, raw.items s h = items := by
  unfold decode
  by_cases h : raw.stride = s.stride
  · simp [h]
  · simp [h]

/-- A column has as many elements as it says. -/
theorem length_of_decode {s : Shape} {raw : RawBytes} {items : List s.Value}
    (h : raw.decode s = .ok items) : items.length = raw.count := by
  rcases decode_eq_ok_iff.1 h with ⟨hstride, rfl⟩
  exact length_items s raw hstride

theorem exists_decode_iff {s : Shape} {raw : RawBytes} :
    (∃ items, raw.decode s = .ok items) ↔ raw.stride = s.stride := by
  constructor
  · rintro ⟨items, h⟩
    exact (decode_eq_ok_iff.1 h).1
  · intro h
    exact ⟨_, decode_eq_ok_iff.2 ⟨h, rfl⟩⟩

theorem encode_of_readItems {s : Shape} (hs : s.hasBool = false) {n : Nat} {bytes : Bytes}
    {items : List s.Value} (h : readItems s n bytes = some items) :
    items.length = n ∧ ∃ rest, items.flatMap s.encode ++ rest = bytes := by
  induction n generalizing bytes items with
  | zero =>
    cases h
    exact ⟨rfl, bytes, rfl⟩
  | succ n ih =>
    unfold readItems at h
    split at h
    · cases h
    · rename_i x middle hx
      rcases Option.map_eq_some_iff.1 h with ⟨tail, htail, rfl⟩
      rcases ih htail with ⟨hlength, rest, hrest⟩
      refine ⟨by rw [List.length_cons, hlength], rest, ?_⟩
      rw [List.flatMap_cons, List.append_assoc, hrest, Shape.encode_of_decode? hs hx]

/-- A column without truth values is written as it was read. -/
theorem encode_items {s : Shape} (hs : s.hasBool = false) (raw : RawBytes)
    (h : raw.stride = s.stride) : encode s (raw.items s h) = raw := by
  have hread : readItems s raw.count raw.data = some (raw.items s h) := (Option.some_get _).symm
  rcases encode_of_readItems hs hread with ⟨hlength, rest, hrest⟩
  -- the elements take as many bytes as the column has, so nothing follows them
  have hwritten : ((raw.items s h).flatMap s.encode).length = raw.data.length := by
    rw [Shape.length_flatMap_eq_mul (Shape.length_encode s), raw.length_data, hlength, h]
  have hempty : rest = [] := by
    have htotal := congrArg List.length hrest
    rw [List.length_append] at htotal
    exact List.eq_nil_of_length_eq_zero (by omega)
  rw [hempty, List.append_nil] at hrest
  rcases raw with ⟨data, stride, count, hdata⟩
  unfold encode
  congr 1
  exact h.symm

theorem encode_of_decode {s : Shape} (hs : s.hasBool = false) {raw : RawBytes}
    {items : List s.Value} (h : raw.decode s = .ok items) : encode s items = raw := by
  unfold decode at h
  split at h
  · rename_i hstride
    rw [← Except.ok.inj h]
    exact encode_items hs raw hstride
  · cases h

end RawBytes

/-- Records are read as the elements of a column. -/
theorem Record.decodeAll_eq_ok_iff {t : DataType} {raw : RawBytes} {records : List (Record t)} :
    Record.decodeAll t raw = .ok records ↔ raw.decode t.record = .ok records := by
  unfold Record.decodeAll RawBytes.decode
  by_cases h : raw.stride = t.record.stride
  · rw [dif_pos h, dif_pos h]
  · rw [dif_neg h, dif_neg h]
    constructor
    · intro h
      cases h
    · intro h
      cases h

end EventModel
