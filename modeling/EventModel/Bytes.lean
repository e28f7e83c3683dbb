import EventModel.Prelude

/-!
# Byte strings and little-endian numbers

A byte string is a list of bytes. Numbers are stored with their least significant byte first:
`LittleEndian.encode` writes the low bytes of a number and `LittleEndian.value` reads them back, so
that the two are inverse on numbers that fit and on every byte string.
-/

namespace EventModel

/-- A byte string. -/
abbrev Bytes := List UInt8

namespace LittleEndian

/-- The `n` low bytes of `v`, least significant first. -/
def encode : Nat → Nat → Bytes
  | 0, _ => []
  | n + 1, v => UInt8.ofNat v :: encode n (v / 256)

/-- The number whose bytes, least significant first, are given. -/
def value : Bytes → Nat
  | [] => 0
  | b :: rest => b.toNat + 256 * value rest

@[simp]
theorem length_encode (n v : Nat) : (encode n v).length = n := by
  induction n generalizing v with
  | zero => rfl
  | succ n ih => simp [encode, ih]

theorem value_encode (n v : Nat) : value (encode n v) = v % 256 ^ n := by
  induction n generalizing v with
  | zero => simp [encode, value, Nat.mod_one]
  | succ n ih =>
    simp only [encode, value, ih, UInt8.toNat_ofNat']
    rw [show 256 ^ (n + 1) = 256 * 256 ^ n from Nat.pow_succ', Nat.mod_mul]

/-- The number of `n` bytes is below `256 ^ n`. -/
theorem value_lt (bs : Bytes) : value bs < 256 ^ bs.length := by
  induction bs with
  | nil => simp [value]
  | cons b rest ih =>
    have hb := b.toNat_lt
    simp only [value, List.length_cons, Nat.pow_succ]
    omega

/-- Bytes are the written form of their number. -/
theorem encode_value (bs : Bytes) : encode bs.length (value bs) = bs := by
  induction bs with
  | nil => rfl
  | cons b rest ih =>
    have hb := b.toNat_lt
    have hdiv : (b.toNat + 256 * value rest) / 256 = value rest := by omega
    have hhead : UInt8.ofNat (b.toNat + 256 * value rest) = b := by
      apply UInt8.toNat_inj.1
      rw [UInt8.toNat_ofNat']
      omega
    simp [encode, value, hdiv, hhead, ih]

end LittleEndian

namespace BigEndian

/-- The `n` low bytes of `v`, most significant first. -/
def encode (n v : Nat) : Bytes :=
  (LittleEndian.encode n v).reverse

/-- The number whose bytes, most significant first, are given. -/
def value (bs : Bytes) : Nat :=
  LittleEndian.value bs.reverse

@[simp]
theorem length_encode (n v : Nat) : (encode n v).length = n := by
  simp [encode]

theorem value_encode (n v : Nat) : value (encode n v) = v % 256 ^ n := by
  simp [value, encode, LittleEndian.value_encode]

end BigEndian

end EventModel
