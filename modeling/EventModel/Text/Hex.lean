import EventModel.Bytes

/-!
# Hexadecimal text of byte strings

`Hex.encode` writes two lower-case digits per byte, the high half first. `Hex.decode?` reads digits
of either case, and `Hex.decode?_encode` states that it gives back the bytes that were written.
-/

namespace EventModel.Hex

/-- The lower-case digit of a number below sixteen. -/
def digit (n : Nat) : Char :=
  if n < 10 then Char.ofNat ('0'.toNat + n) else Char.ofNat ('a'.toNat + (n - 10))

/-- The number of a digit of either case. -/
def digitValue? (c : Char) : Option Nat :=
  if '0' ≤ c ∧ c ≤ '9' then some (c.toNat - '0'.toNat)
  else if 'a' ≤ c ∧ c ≤ 'f' then some (c.toNat - 'a'.toNat + 10)
  else if 'A' ≤ c ∧ c ≤ 'F' then some (c.toNat - 'A'.toNat + 10)
  else none

/-- The two digits of a byte. -/
def digits (b : UInt8) : List Char :=
  [digit (b.toNat / 16), digit (b.toNat % 16)]

/-- Reads pairs of digits; the bytes read so far come last first. -/
def readPairs : List Char → (sofar : Bytes) → Option Bytes
  | [], sofar => some sofar.reverse
  | high :: low :: rest, sofar =>
    match digitValue? high, digitValue? low with
    | some x, some y => readPairs rest (UInt8.ofNat (16 * x + y) :: sofar)
    | _, _ => none
  | [_], _ => none

/-- Two digits per byte. -/
def encode (bytes : Bytes) : String :=
  String.ofList (bytes.flatMap digits)

/-- The bytes of a text that is made of pairs of digits only. -/
def decode? (text : String) : Option Bytes :=
  readPairs text.toList []

/-- Digits are read back. -/
theorem digitValue?_digit : ∀ n < 16, digitValue? (digit n) = some n := by
  decide

/-- Written bytes are read onto what was read before them. -/
theorem readPairs_digits (bytes sofar : Bytes) :
    readPairs (bytes.flatMap digits) sofar = some (sofar.reverse ++ bytes) := by
  induction bytes generalizing sofar with
  | nil => simp [readPairs]
  | cons b rest ih =>
    have hb := b.toNat_lt
    have hsum : 16 * (b.toNat / 16) + b.toNat % 16 = b.toNat := by omega
    simp [digits, readPairs, digitValue?_digit (b.toNat / 16) (by omega),
      digitValue?_digit (b.toNat % 16) (by omega), hsum, ih]

/-- Written bytes are read back. -/
theorem decode?_encode (bytes : Bytes) : decode? (encode bytes) = some bytes := by
  simp [decode?, encode, readPairs_digits]

end EventModel.Hex
