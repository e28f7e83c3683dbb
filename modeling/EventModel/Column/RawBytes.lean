import EventModel.Column.Shape
import EventModel.Text.Quoted

/-!
# Raw columns

`RawBytes` is a column as it is stored: its bytes, the bytes per element and the number of elements,
which is kept because elements may have no bytes. `encode` and `decode` convert between a column and
the list of its elements; `decode_encode` states that nothing is lost.
-/

namespace EventModel

/-- The bytes of `count` elements of `stride` bytes each. -/
structure RawBytes where
  data : Bytes
  stride : Nat
  count : Nat
  length_data : data.length = stride * count
  deriving DecidableEq

namespace RawBytes

/-- A column without elements. -/
def empty (stride : Nat) : RawBytes :=
  ⟨[], stride, 0, rfl⟩

instance : Inhabited RawBytes := ⟨empty 0⟩

def isEmpty (raw : RawBytes) : Bool :=
  raw.count == 0

/-- Sizes are words of 64 bits. -/
def sizeLimit : Nat :=
  2 ^ 64

/-- A column from stored parts, which must be exactly `count` elements of `stride` bytes. -/
def ofParts (data : Bytes) (stride count : Nat) : Except Error RawBytes :=
  if sizeLimit ≤ stride * count then
    .error (.corruptBuffer (toString count ++ " elements of " ++ toString stride
      ++ " bytes overflow"))
  else if h : data.length = stride * count then
    .ok ⟨data, stride, count, h⟩
  else
    .error (.corruptBuffer ("expected " ++ toString (stride * count) ++ " bytes for "
      ++ toString count ++ " elements of stride " ++ toString stride ++ ", got "
      ++ toString data.length))

/-- The column of a list of elements. -/
def encode (s : Shape) (items : List s.Value) : RawBytes :=
  ⟨items.flatMap s.encode, s.stride, items.length,
    Shape.length_flatMap_eq_mul (Shape.length_encode s) items⟩

/-- Reads `n` elements. -/
def readItems (s : Shape) : Nat → Bytes → Option (List s.Value)
  | 0, _ => some []
  | n + 1, bytes =>
    match s.decode? bytes with
    | none => none
    | some (x, rest) => (readItems s n rest).map (x :: ·)

/-- Written elements are read back, whatever follows them. -/
theorem readItems_encode (s : Shape) (items : List s.Value) (rest : Bytes) :
    readItems s items.length (items.flatMap s.encode ++ rest) = some items := by
  induction items with
  | nil => rfl
  | cons x items ih => simp [readItems, List.append_assoc, Shape.decode?_encode, ih]

/-- Reading fails only for lack of bytes. -/
theorem readItems_isSome (s : Shape) (n : Nat) (bytes : Bytes) (h : s.stride * n ≤ bytes.length) :
    ∃ items, readItems s n bytes = some items ∧ items.length = n := by
  induction n generalizing bytes with
  | zero => exact ⟨[], rfl, rfl⟩
  | succ n ih =>
    rw [Nat.mul_succ] at h
    obtain ⟨x, hx⟩ := Shape.decode?_isSome s bytes (by omega)
    obtain ⟨items, hitems, hlen⟩ := ih (bytes.drop s.stride) (by simp; omega)
    exact ⟨x :: items, by simp [readItems, hx, hitems], by simp [hlen]⟩

/-- The elements of a column whose stride is known to fit. -/
def items (s : Shape) (raw : RawBytes) (h : raw.stride = s.stride) : List s.Value :=
  (readItems s raw.count raw.data).get (by
    obtain ⟨xs, hxs, -⟩ := readItems_isSome s raw.count raw.data
      (Nat.le_of_eq (by rw [raw.length_data, h]))
    simp [hxs])

/-- The elements of a column. -/
def decode (s : Shape) (raw : RawBytes) : Except Error (List s.Value) :=
  if h : raw.stride = s.stride then .ok (raw.items s h)
  else .error (.corruptBuffer ("stride " ++ toString raw.stride
    ++ " does not match element size " ++ toString s.stride))

@[simp]
theorem items_encode (s : Shape) (xs : List s.Value) (h : (encode s xs).stride = s.stride) :
    (encode s xs).items s h = xs := by
  have hread := readItems_encode s xs []
  rw [List.append_nil] at hread
  simp [items, encode, hread]

/-- Decoding gives back the encoded elements. -/
@[simp]
theorem decode_encode (s : Shape) (xs : List s.Value) : (encode s xs).decode s = .ok xs := by
  have h : (encode s xs).stride = s.stride := rfl
  simp [decode, h]

/-- The text that shows the extent of a column. -/
def describe (raw : RawBytes) : String :=
  Text.structureText "RawBytes"
    [("len", toString raw.count), ("stride", toString raw.stride),
      ("bytes", toString raw.data.length)] true

end RawBytes

/-- The text that shows a window as a value. -/
def Window.describe (w : Window) : String :=
  Text.structureText "RelationRange"
    [("begin", toString w.start.toNat), ("end", toString w.stop.toNat)] true

end EventModel
