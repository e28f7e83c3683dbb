import EventModel.Bytes
import EventModel.Number.Binary
import EventModel.Column.Window

/-!
# Shapes of column elements

A column holds elements of one shape, each written with the same number of bytes. `Shape.Value` is
the type of the elements, `encode` writes one, and `decode?` reads one from the front of a byte
string and returns what follows it.

`length_encode` states that an element takes exactly `stride` bytes, `decode?_encode` that reading
gives back what was written, and `decode?_isSome` that `stride` bytes always suffice.
-/

namespace EventModel

/-- The fixed-size shapes of payloads, elements and records. -/
inductive Shape
  | u8 | i8 | u16 | i16 | u32 | i32 | u64 | i64
  | f32 | f64
  | bool
  | unit
  | objectId
  | window
  | array (n : Nat) (element : Shape)
  | pair (first second : Shape)
  deriving DecidableEq, Repr, Inhabited

namespace Shape

/-- The elements of a shape. -/
abbrev Value : Shape → Type
  | u8 => UInt8
  | i8 => Int8
  | u16 => UInt16
  | i16 => Int16
  | u32 => UInt32
  | i32 => Int32
  | u64 => UInt64
  | i64 => Int64
  | f32 => Binary32
  | f64 => Binary64
  | bool => Bool
  | unit => Unit
  | objectId => ObjectId
  | window => Window
  | array n element => Vector element.Value n
  | pair first second => first.Value × second.Value

instance instDecidableEqValue : (s : Shape) → DecidableEq s.Value
  | u8 => inferInstanceAs (DecidableEq UInt8)
  | i8 => inferInstanceAs (DecidableEq Int8)
  | u16 => inferInstanceAs (DecidableEq UInt16)
  | i16 => inferInstanceAs (DecidableEq Int16)
  | u32 => inferInstanceAs (DecidableEq UInt32)
  | i32 => inferInstanceAs (DecidableEq Int32)
  | u64 => inferInstanceAs (DecidableEq UInt64)
  | i64 => inferInstanceAs (DecidableEq Int64)
  | f32 => inferInstanceAs (DecidableEq Binary32)
  | f64 => inferInstanceAs (DecidableEq Binary64)
  | bool => inferInstanceAs (DecidableEq Bool)
  | unit => inferInstanceAs (DecidableEq Unit)
  | objectId => inferInstanceAs (DecidableEq ObjectId)
  | window => inferInstanceAs (DecidableEq Window)
  | array n element =>
    have := instDecidableEqValue element
    inferInstanceAs (DecidableEq (Vector element.Value n))
  | pair first second =>
    have := instDecidableEqValue first
    have := instDecidableEqValue second
    inferInstanceAs (DecidableEq (first.Value × second.Value))

/-- The number of bytes of an element. -/
def stride : Shape → Nat
  | u8 | i8 | bool => 1
  | u16 | i16 => 2
  | u32 | i32 | f32 => 4
  | u64 | i64 | f64 => 8
  | unit => 0
  | objectId => 12
  | window => 8
  | array n element => element.stride * n
  | pair first second => first.stride + second.stride

/-- The element that stands for missing data: zeros, and an address that is untracked. -/
def default : (s : Shape) → s.Value
  | u8 => (0 : UInt8)
  | i8 => (0 : Int8)
  | u16 => (0 : UInt16)
  | i16 => (0 : Int16)
  | u32 => (0 : UInt32)
  | i32 => (0 : Int32)
  | u64 => (0 : UInt64)
  | i64 => (0 : Int64)
  | f32 => Binary32.zero
  | f64 => Binary64.zero
  | bool => false
  | unit => ()
  | objectId => ObjectId.untracked
  | window => (⟨0, 0⟩ : Window)
  | array n element => Vector.replicate n element.default
  | pair first second => (first.default, second.default)

/-- The bytes of an element, numbers in little-endian order. -/
def encode : (s : Shape) → s.Value → Bytes
  | u8, x => LittleEndian.encode 1 (UInt8.toNat x)
  | i8, x => LittleEndian.encode 1 (Int8.toUInt8 x).toNat
  | u16, x => LittleEndian.encode 2 (UInt16.toNat x)
  | i16, x => LittleEndian.encode 2 (Int16.toUInt16 x).toNat
  | u32, x => LittleEndian.encode 4 (UInt32.toNat x)
  | i32, x => LittleEndian.encode 4 (Int32.toUInt32 x).toNat
  | u64, x => LittleEndian.encode 8 (UInt64.toNat x)
  | i64, x => LittleEndian.encode 8 (Int64.toUInt64 x).toNat
  | f32, x => LittleEndian.encode 4 (Binary32.bits x).toNat
  | f64, x => LittleEndian.encode 8 (Binary64.bits x).toNat
  | bool, x => [if x = true then 1 else 0]
  | unit, _ => []
  | objectId, x =>
    LittleEndian.encode 8 (ObjectId.index x).toUInt64.toNat
      ++ LittleEndian.encode 4 (ObjectId.collection x).val.toNat
  | window, x =>
    LittleEndian.encode 4 (Window.start x).toNat ++ LittleEndian.encode 4 (Window.stop x).toNat
  | array _ element, xs => (Vector.toList xs).flatMap element.encode
  | pair first second, (x, y) => first.encode x ++ second.encode y

/-- The number in the first `n` bytes, and the bytes after them. -/
def takeNumber (n : Nat) (bytes : Bytes) : Option (Nat × Bytes) :=
  if (bytes.take n).length = n then some (LittleEndian.value (bytes.take n), bytes.drop n)
  else none

/-- Reads `n` elements, one after the other. -/
def takeVector (read : Bytes → Option (α × Bytes)) :
    (n : Nat) → Bytes → Option (Vector α n × Bytes)
  | 0, bytes => some (#v[], bytes)
  | n + 1, bytes => do
    let (front, bytes) ← takeVector read n bytes
    let (last, bytes) ← read bytes
    return (front.push last, bytes)

/-- The element at the front of a byte string, and the bytes after it. A truth value is false only
if its byte is zero. -/
def decode? : (s : Shape) → Bytes → Option (s.Value × Bytes)
  | u8, bytes => (takeNumber 1 bytes).map fun (n, rest) => (UInt8.ofNat n, rest)
  | i8, bytes => (takeNumber 1 bytes).map fun (n, rest) => ((UInt8.ofNat n).toInt8, rest)
  | u16, bytes => (takeNumber 2 bytes).map fun (n, rest) => (UInt16.ofNat n, rest)
  | i16, bytes => (takeNumber 2 bytes).map fun (n, rest) => ((UInt16.ofNat n).toInt16, rest)
  | u32, bytes => (takeNumber 4 bytes).map fun (n, rest) => (UInt32.ofNat n, rest)
  | i32, bytes => (takeNumber 4 bytes).map fun (n, rest) => ((UInt32.ofNat n).toInt32, rest)
  | u64, bytes => (takeNumber 8 bytes).map fun (n, rest) => (UInt64.ofNat n, rest)
  | i64, bytes => (takeNumber 8 bytes).map fun (n, rest) => ((UInt64.ofNat n).toInt64, rest)
  | f32, bytes => (takeNumber 4 bytes).map fun (n, rest) => (⟨UInt32.ofNat n⟩, rest)
  | f64, bytes => (takeNumber 8 bytes).map fun (n, rest) => (⟨UInt64.ofNat n⟩, rest)
  | bool, bytes => (takeNumber 1 bytes).map fun (n, rest) => (n != 0, rest)
  | unit, bytes => some ((), bytes)
  | objectId, bytes => do
    let (index, bytes) ← takeNumber 8 bytes
    let (collection, bytes) ← takeNumber 4 bytes
    return (⟨(UInt64.ofNat index).toInt64, ⟨UInt32.ofNat collection⟩⟩, bytes)
  | window, bytes => do
    let (start, bytes) ← takeNumber 4 bytes
    let (stop, bytes) ← takeNumber 4 bytes
    return (⟨UInt32.ofNat start, UInt32.ofNat stop⟩, bytes)
  | array n element, bytes => takeVector element.decode? n bytes
  | pair first second, bytes => do
    let (x, bytes) ← first.decode? bytes
    let (y, bytes) ← second.decode? bytes
    return ((x, y), bytes)

/-- Equality of elements, where floating point numbers are compared as numbers: a NaN equals
nothing, and the two zeros are equal. -/
def equal : (s : Shape) → s.Value → s.Value → Bool
  | u8, x, y => UInt8.toNat x == UInt8.toNat y
  | i8, x, y => Int8.toInt x == Int8.toInt y
  | u16, x, y => UInt16.toNat x == UInt16.toNat y
  | i16, x, y => Int16.toInt x == Int16.toInt y
  | u32, x, y => UInt32.toNat x == UInt32.toNat y
  | i32, x, y => Int32.toInt x == Int32.toInt y
  | u64, x, y => UInt64.toNat x == UInt64.toNat y
  | i64, x, y => Int64.toInt x == Int64.toInt y
  | f32, x, y => Binary32.equal x y
  | f64, x, y => Binary64.equal x y
  | bool, x, y => (x : Bool) == y
  | unit, _, _ => true
  | objectId, x, y => (x : ObjectId) == y
  | window, x, y => (x : Window) == y
  | array _ element, xs, ys => xs.toList.isEqv ys.toList element.equal
  | pair first second, (x, y), (x', y') => first.equal x x' && second.equal y y'

/-! ## Writing and reading are inverse -/

theorem length_flatMap_eq_mul {encode : α → Bytes} {k : Nat} (h : ∀ x, (encode x).length = k)
    (xs : List α) : (xs.flatMap encode).length = k * xs.length := by
  induction xs with
  | nil => simp
  | cons x xs ih => simp [h, ih, Nat.mul_add, Nat.add_comm]

/-- An element takes exactly `stride` bytes. -/
@[simp]
theorem length_encode (s : Shape) (x : s.Value) : (s.encode x).length = s.stride := by
  induction s with
  | array n element ih => simp [encode, stride, length_flatMap_eq_mul ih]
  | pair first second ihFirst ihSecond => simp [encode, stride, ihFirst, ihSecond]
  | _ => simp [encode, stride]

@[simp]
theorem takeNumber_encode (n v : Nat) (rest : Bytes) :
    takeNumber n (LittleEndian.encode n v ++ rest) = some (v % 256 ^ n, rest) := by
  simp [takeNumber, LittleEndian.value_encode]

/-- Vectors are read back if their elements are. -/
theorem takeVector_encode {read : Bytes → Option (α × Bytes)} {encode : α → Bytes}
    (h : ∀ x rest, read (encode x ++ rest) = some (x, rest)) (xs : Vector α n) (rest : Bytes) :
    takeVector read n (xs.toList.flatMap encode ++ rest) = some (xs, rest) := by
  induction n generalizing rest with
  | zero =>
    have hxs : xs = #v[] := by ext i hi; omega
    subst hxs
    simp [takeVector]
  | succ n ih =>
    obtain ⟨front, last, rfl⟩ : ∃ front last, xs = Vector.push front last :=
      ⟨xs.pop, xs.back, by simp⟩
    simp [takeVector, Vector.toList_push, List.append_assoc, ih, h]

theorem ofNat_toUInt8 (x : Int8) : Int8.ofNat x.toUInt8.toNat = x := by
  change (UInt8.ofNat x.toUInt8.toNat).toInt8 = x
  simp only [UInt8.ofNat_toNat, Int8.toInt8_toUInt8]

theorem ofNat_toUInt16 (x : Int16) : Int16.ofNat x.toUInt16.toNat = x := by
  change (UInt16.ofNat x.toUInt16.toNat).toInt16 = x
  simp only [UInt16.ofNat_toNat, Int16.toInt16_toUInt16]

theorem ofNat_toUInt32 (x : Int32) : Int32.ofNat x.toUInt32.toNat = x := by
  change (UInt32.ofNat x.toUInt32.toNat).toInt32 = x
  simp only [UInt32.ofNat_toNat, Int32.toInt32_toUInt32]

theorem ofNat_toUInt64 (x : Int64) : Int64.ofNat x.toUInt64.toNat = x := by
  change (UInt64.ofNat x.toUInt64.toNat).toInt64 = x
  simp only [UInt64.ofNat_toNat, Int64.toInt64_toUInt64]

/-- Reading gives back what was written and leaves what follows. -/
theorem decode?_encode (s : Shape) (x : s.Value) (rest : Bytes) :
    s.decode? (s.encode x ++ rest) = some (x, rest) := by
  induction s generalizing rest with
  | array n element ih => exact takeVector_encode ih x rest
  | pair first second ihFirst ihSecond =>
    simp [encode, decode?, List.append_assoc, ihFirst, ihSecond]
  | bool => cases x <;> simp [encode, decode?, takeNumber, LittleEndian.value]
  | unit => rfl
  | objectId => simp [encode, decode?, List.append_assoc, ofNat_toUInt64]
  | window => simp [encode, decode?, List.append_assoc]
  | i8 => simp [encode, decode?, ofNat_toUInt8]
  | i16 => simp [encode, decode?, ofNat_toUInt16]
  | i32 => simp [encode, decode?, ofNat_toUInt32]
  | i64 => simp [encode, decode?, ofNat_toUInt64]
  | _ => simp [encode, decode?]

theorem takeVector_isSome {read : Bytes → Option (α × Bytes)} {k : Nat}
    (h : ∀ bytes, k ≤ bytes.length →
      ∃ x, read bytes = some (x, bytes.drop k))
    (n : Nat) (bytes : Bytes) (hlen : k * n ≤ bytes.length) :
    ∃ xs, takeVector read n bytes = some (xs, bytes.drop (k * n)) := by
  induction n with
  | zero => exact ⟨#v[], by simp [takeVector]⟩
  | succ n ih =>
    have hsplit : k * (n + 1) = k * n + k := Nat.mul_succ k n
    obtain ⟨xs, hxs⟩ := ih (by omega)
    obtain ⟨x, hx⟩ := h (bytes.drop (k * n)) (by simp; omega)
    exact ⟨xs.push x, by simp [takeVector, hxs, hx, hsplit]⟩

theorem takeNumber_of_le {n : Nat} {bytes : Bytes} (h : n ≤ bytes.length) :
    takeNumber n bytes = some (LittleEndian.value (bytes.take n), bytes.drop n) := by
  simp [takeNumber, Nat.min_eq_left h]

/-- As many bytes as the stride always hold an element, and reading takes exactly those. -/
theorem decode?_isSome (s : Shape) (bytes : Bytes) (h : s.stride ≤ bytes.length) :
    ∃ x, s.decode? bytes = some (x, bytes.drop s.stride) := by
  induction s generalizing bytes with
  | array n element ih => exact takeVector_isSome ih n bytes h
  | pair first second ihFirst ihSecond =>
    simp only [stride] at h
    obtain ⟨x, hx⟩ := ihFirst bytes (by omega)
    obtain ⟨y, hy⟩ := ihSecond (bytes.drop first.stride) (by simp; omega)
    exact ⟨(x, y), by simp [decode?, hx, hy, stride]⟩
  | unit => exact ⟨(), by simp [decode?, stride]⟩
  | objectId =>
    simp only [stride] at h
    have h4 : 4 ≤ (bytes.drop 8).length := by simp; omega
    exact ⟨_, by simp [decode?, takeNumber_of_le (show 8 ≤ bytes.length by omega),
      takeNumber_of_le h4, stride]; rfl⟩
  | window =>
    simp only [stride] at h
    have h4 : 4 ≤ (bytes.drop 4).length := by simp; omega
    exact ⟨_, by simp [decode?, takeNumber_of_le (show 4 ≤ bytes.length by omega),
      takeNumber_of_le h4, stride]; rfl⟩
  | _ => exact ⟨_, by simp [decode?, takeNumber_of_le (by simpa [stride] using h), stride]; rfl⟩

end Shape

end EventModel
