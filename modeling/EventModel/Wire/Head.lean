import EventModel.Bytes
import EventModel.Number.Binary

/-!
# Heads of wire items

The body of a stream is a sequence of items in the Concise Binary Object Representation. Each item
starts with a head: a major type and an argument, which is the value of a number or the length of
what follows. `encodeHead` writes the shortest head, and `readHead` reads a head of any length.
-/

namespace EventModel.Wire

/-- Why a byte string is not read. -/
inductive Failure
  /-- The bytes end within an item. -/
  | endOfInput
  /-- The bytes are no items. -/
  | malformed
  /-- An item has no meaning where it stands. -/
  | unexpected
  /-- Items are nested too deeply. -/
  | tooDeep
  deriving DecidableEq, Repr

/-- What the failure tells. -/
def Failure.reason : Failure → String
  | endOfInput => "the input ends within an item"
  | malformed => "the input is no item"
  | unexpected => "an item has no meaning where it stands"
  | tooDeep => "items are nested too deeply"

/-- Reads a value from the front of a byte string. -/
abbrev Reader := StateT Bytes (Except Failure)

/-- A length of none is that of an item that goes on to a stop. -/
inductive Head
  | positive (n : Nat)
  /-- The number `-1 - n`. -/
  | negative (n : Nat)
  | bytes (length : Option Nat)
  | text (length : Option Nat)
  | array (length : Option Nat)
  | map (length : Option Nat)
  | tag (n : Nat)
  | simple (n : Nat)
  | float (x : Binary64)
  | stop
  deriving DecidableEq, Repr

/-! ## Writing -/

/-- The major types. -/
inductive Major
  | positive | negative | bytes | text | array | map | tag | other
  deriving DecidableEq, Repr

/-- The number of a major type in the high bits of the first byte. -/
def Major.code : Major → Nat
  | positive => 0
  | negative => 1
  | bytes => 2
  | text => 3
  | array => 4
  | map => 5
  | tag => 6
  | other => 7

/-- The shortest head of a major type with an argument below `2 ^ 64`. -/
def encodeHead (major : Major) (n : Nat) : Bytes :=
  let lead := 32 * major.code
  if n < 24 then [UInt8.ofNat (lead + n)]
  else if n < 2 ^ 8 then UInt8.ofNat (lead + 24) :: BigEndian.encode 1 n
  else if n < 2 ^ 16 then UInt8.ofNat (lead + 25) :: BigEndian.encode 2 n
  else if n < 2 ^ 32 then UInt8.ofNat (lead + 26) :: BigEndian.encode 4 n
  else UInt8.ofNat (lead + 27) :: BigEndian.encode 8 n

/-- The number with the given bits in the shortest of three formats that keeps every bit. -/
def encodeFloat (x : Binary64) : Bytes :=
  match x.binary16? with
  | some bits => 0xf9 :: BigEndian.encode 2 bits.toNat
  | none =>
    match x.binary32? with
    | some y => 0xfa :: BigEndian.encode 4 y.bits.toNat
    | none => 0xfb :: BigEndian.encode 8 x.bits.toNat

/-! ## Reading -/

/-- The next `n` bytes. -/
def takeBytes (n : Nat) : Reader Bytes := fun bytes =>
  if (bytes.take n).length = n then .ok (bytes.take n, bytes.drop n) else .error .endOfInput

def takeByte : Reader UInt8 := fun bytes =>
  match bytes with
  | [] => .error .endOfInput
  | b :: rest => .ok (b, rest)

def fail (why : Failure) : Reader α := fun _ =>
  .error why

/-- The argument of a head. -/
inductive Argument
  /-- The argument is part of the first byte. -/
  | short (n : Nat)
  /-- The argument takes `width` more bytes. -/
  | long (width n : Nat)
  /-- The item goes on to a stop. -/
  | openEnded

/-- An argument in bytes of its own. -/
def readLong (width : Nat) : Reader Argument := do
  return .long width (BigEndian.value (← takeBytes width))

/-- The argument that the low bits of the first byte announce. -/
def readArgument (low : Nat) : Reader Argument :=
  if low < 24 then return .short low
  else if low = 24 then readLong 1
  else if low = 25 then readLong 2
  else if low = 26 then readLong 4
  else if low = 27 then readLong 8
  else if low = 31 then return .openEnded
  else fail .malformed

/-- The number that the argument stands for, if it is one. -/
def Argument.number? : Argument → Option Nat
  | short n => some n
  | long _ n => some n
  | openEnded => none

/-- The head of a major type. Numbers and tags have no open form. -/
def headOf (major : Nat) (argument : Argument) : Option Head :=
  match major with
  | 0 => argument.number?.map .positive
  | 1 => argument.number?.map .negative
  | 2 => some (.bytes argument.number?)
  | 3 => some (.text argument.number?)
  | 4 => some (.array argument.number?)
  | 5 => some (.map argument.number?)
  | 6 => argument.number?.map .tag
  | _ =>
    match argument with
    | .short n => some (.simple n)
    | .long 1 n => some (.simple n)
    | .long 2 n => some (.float (.ofBinary16 (UInt16.ofNat n)))
    | .long 4 n => some (.float (Binary32.widen ⟨UInt32.ofNat n⟩))
    | .long _ n => some (.float ⟨UInt64.ofNat n⟩)
    | .openEnded => some .stop

/-- The head of the next item. -/
def readHead : Reader Head := do
  let first ← takeByte
  let argument ← readArgument (first.toNat % 32)
  match headOf (first.toNat / 32) argument with
  | some head => return head
  | none => fail .malformed

end EventModel.Wire
