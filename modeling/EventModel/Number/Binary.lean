import EventModel.Prelude

/-!
# Binary floating point numbers as bit patterns

A number of the formats binary32 and binary64 is kept as its bit pattern, so that a NaN keeps its
payload. `widen` and `narrow` convert between formats: widening is exact, narrowing rounds to the
nearest value and a half to the even neighbour. A NaN keeps the leading bits of its payload and
becomes quiet.
-/

namespace EventModel

/-- An interchange format: the widths of the exponent field and of the fraction field. -/
structure BinaryFormat where
  exponentBits : Nat
  fractionBits : Nat
  deriving DecidableEq, Repr

namespace BinaryFormat

/-- Half precision. -/
def binary16 : BinaryFormat := ⟨5, 10⟩

/-- Single precision. -/
def binary32 : BinaryFormat := ⟨8, 23⟩

/-- Double precision. -/
def binary64 : BinaryFormat := ⟨11, 52⟩

/-- The exponent field of infinities and NaNs. -/
def topExponent (f : BinaryFormat) : Nat :=
  2 ^ f.exponentBits - 1

/-- The exponent field of the number one. -/
def bias (f : BinaryFormat) : Nat :=
  2 ^ (f.exponentBits - 1) - 1

/-- Assembles a bit pattern; an exponent of one is added by a fraction that overflows its field. -/
def assemble (f : BinaryFormat) (sign exponent fraction : Nat) : Nat :=
  sign * 2 ^ (f.exponentBits + f.fractionBits) + exponent * 2 ^ f.fractionBits + fraction

def sign (f : BinaryFormat) (bits : Nat) : Nat :=
  bits / 2 ^ (f.exponentBits + f.fractionBits) % 2

def exponent (f : BinaryFormat) (bits : Nat) : Nat :=
  bits / 2 ^ f.fractionBits % 2 ^ f.exponentBits

def fraction (f : BinaryFormat) (bits : Nat) : Nat :=
  bits % 2 ^ f.fractionBits

def isNaN (f : BinaryFormat) (bits : Nat) : Bool :=
  f.exponent bits == f.topExponent && f.fraction bits != 0

/-- The fraction of a NaN with its quiet bit set. -/
def quieted (f : BinaryFormat) (fraction : Nat) : Nat :=
  if fraction < 2 ^ (f.fractionBits - 1) then fraction + 2 ^ (f.fractionBits - 1) else fraction

/-- `m / 2 ^ k`, rounded to the nearest integer and a half to the even one. -/
def roundShift (m k : Nat) : Nat :=
  let q := m / 2 ^ k
  let r := 2 * (m % 2 ^ k)
  if r > 2 ^ k ∨ (r = 2 ^ k ∧ q % 2 = 1) then q + 1 else q

/-- The same number in a wider format. -/
def widen (narrowFormat wideFormat : BinaryFormat) (bits : Nat) : Nat :=
  let s := narrowFormat.sign bits
  let e := narrowFormat.exponent bits
  let m := narrowFormat.fraction bits
  let gap := wideFormat.fractionBits - narrowFormat.fractionBits
  if e = narrowFormat.topExponent then
    wideFormat.assemble s wideFormat.topExponent
      (if m = 0 then 0 else wideFormat.quieted (m * 2 ^ gap))
  else if e = 0 then
    if m = 0 then wideFormat.assemble s 0 0
    else
      -- a subnormal number becomes normal: its leading one moves into the exponent
      let p := Nat.log2 m
      wideFormat.assemble s
        (wideFormat.bias + 1 + p - narrowFormat.bias - narrowFormat.fractionBits)
        ((m - 2 ^ p) * 2 ^ (wideFormat.fractionBits - p))
  else
    wideFormat.assemble s (e + wideFormat.bias - narrowFormat.bias) (m * 2 ^ gap)

/-- The nearest number of a narrower format. -/
def narrow (wideFormat narrowFormat : BinaryFormat) (bits : Nat) : Nat :=
  let s := wideFormat.sign bits
  let e := wideFormat.exponent bits
  let m := wideFormat.fraction bits
  let gap := wideFormat.fractionBits - narrowFormat.fractionBits
  if e = wideFormat.topExponent then
    narrowFormat.assemble s narrowFormat.topExponent
      (if m = 0 then 0 else narrowFormat.quieted (m / 2 ^ gap))
  else
    let drop := wideFormat.bias - narrowFormat.bias
    let significand := if e = 0 then m else 2 ^ wideFormat.fractionBits + m
    if e ≤ drop then
      -- below the normal range: the unit is that of the subnormal numbers
      narrowFormat.assemble s 0 (roundShift significand (gap + (drop + 1 - max e 1)))
    else if e - drop ≥ narrowFormat.topExponent then
      narrowFormat.assemble s narrowFormat.topExponent 0
    else
      narrowFormat.assemble s (e - drop - 1) (roundShift significand gap)

end BinaryFormat

/-- A binary32 number. -/
structure Binary32 where
  bits : UInt32
  deriving DecidableEq, Repr, Inhabited

/-- A binary64 number. -/
structure Binary64 where
  bits : UInt64
  deriving DecidableEq, Repr, Inhabited

namespace Binary32

def zero : Binary32 := ⟨0⟩

def isNaN (x : Binary32) : Bool :=
  BinaryFormat.binary32.isNaN x.bits.toNat

/-- Numeric equality: a NaN equals nothing, and the two zeros are equal. -/
def equal (x y : Binary32) : Bool :=
  !x.isNaN && !y.isNaN && (x == y || (x.bits &&& 0x7fffffff == 0 && y.bits &&& 0x7fffffff == 0))

/-- The same number as binary64. -/
def widen (x : Binary32) : Binary64 :=
  ⟨UInt64.ofNat (BinaryFormat.widen .binary32 .binary64 x.bits.toNat)⟩

/-- The number as a natural number of units: only for natural numbers below `2 ^ 24`. -/
def ofNat (n : Nat) : Binary32 :=
  if n = 0 then zero
  else
    let p := Nat.log2 n
    ⟨UInt32.ofNat (BinaryFormat.binary32.assemble 0 (BinaryFormat.binary32.bias + p - 1)
      (if p ≤ 23 then n * 2 ^ (23 - p) else BinaryFormat.roundShift n (p - 23)))⟩

end Binary32

namespace Binary64

def zero : Binary64 := ⟨0⟩

def isNaN (x : Binary64) : Bool :=
  BinaryFormat.binary64.isNaN x.bits.toNat

/-- Numeric equality: a NaN equals nothing, and the two zeros are equal. -/
def equal (x y : Binary64) : Bool :=
  !x.isNaN && !y.isNaN &&
    (x == y || (x.bits &&& 0x7fffffffffffffff == 0 && y.bits &&& 0x7fffffffffffffff == 0))

/-- The nearest binary32 number. -/
def narrow (x : Binary64) : Binary32 :=
  ⟨UInt32.ofNat (BinaryFormat.narrow .binary64 .binary32 x.bits.toNat)⟩

/-- The number whose binary16 pattern is given. -/
def ofBinary16 (bits : UInt16) : Binary64 :=
  ⟨UInt64.ofNat (BinaryFormat.widen .binary16 .binary64 bits.toNat)⟩

/-- The pattern of the nearest binary16 number. -/
def narrow16 (x : Binary64) : UInt16 :=
  UInt16.ofNat (BinaryFormat.narrow .binary64 .binary16 x.bits.toNat)

/-- The binary16 pattern that stands for exactly this bit pattern, if there is one. -/
def binary16? (x : Binary64) : Option UInt16 :=
  if ofBinary16 x.narrow16 = x then some x.narrow16 else none

/-- The binary32 number that stands for exactly this bit pattern, if there is one. -/
def binary32? (x : Binary64) : Option Binary32 :=
  if x.narrow.widen = x then some x.narrow else none

/-- The number nearest to a natural number. -/
def ofNat (n : Nat) : Binary64 :=
  if n = 0 then zero
  else
    let p := Nat.log2 n
    ⟨UInt64.ofNat (BinaryFormat.binary64.assemble 0 (BinaryFormat.binary64.bias + p - 1)
      (if p ≤ 52 then n * 2 ^ (52 - p) else BinaryFormat.roundShift n (p - 52)))⟩

/-- A number that has a half precision form is the number of that form. -/
theorem ofBinary16_of_binary16? {x : Binary64} {h : UInt16} (hx : x.binary16? = some h) :
    ofBinary16 h = x := by
  unfold binary16? at hx
  split at hx
  · rename_i heq
    cases hx
    exact heq
  · cases hx

/-- A number that has a single precision form is the number of that form. -/
theorem widen_of_binary32? {x : Binary64} {y : Binary32} (hx : x.binary32? = some y) :
    y.widen = x := by
  unfold binary32? at hx
  split at hx
  · rename_i heq
    cases hx
    exact heq
  · cases hx

end Binary64

end EventModel
