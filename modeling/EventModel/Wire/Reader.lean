import EventModel.Wire.Head

/-!
# Readers of wire items

Readers for strings, numbers, sequences, pairs and maps, and one that passes over any item. Tags
before an item are skipped. A reader that may meet an item of open length takes a bound on the
number of heads it may read; the length of the input always suffices.
-/

namespace EventModel.Wire

/-- The bytes of a string. -/
def utf8 (s : String) : Bytes :=
  s.toUTF8.data.toList

/-- The string with the given bytes. -/
def ofUtf8? (bytes : Bytes) : Option String :=
  String.fromUTF8? ⟨bytes.toArray⟩

/-- A text is read back from its bytes. -/
theorem ofUtf8?_utf8 (s : String) : ofUtf8? (utf8 s) = some s := by
  have hbytes : (⟨(utf8 s).toArray⟩ : ByteArray) = s.toByteArray := by simp [utf8]
  rw [ofUtf8?, hbytes, String.fromUTF8?, dif_pos s.isValidUTF8]
  rfl

/-- The first head that is no tag. -/
def readUntagged : Nat → Reader Head
  | 0 => fail .malformed
  | bound + 1 => do
    match ← readHead with
    | .tag _ => readUntagged bound
    | head => return head

/-! ## Strings -/

/-- Strings are read in blocks of this many bytes, and a key must fit into one. -/
def blockSize : Nat :=
  4096

/-- The number of bytes of the character that starts with the byte `b`, and the range of the byte
after it. -/
def characterForm (b : Nat) : Option (Nat × Nat × Nat) :=
  if b < 0x80 then some (1, 0, 0)
  else if b < 0xc2 then none
  else if b < 0xe0 then some (2, 0x80, 0xbf)
  else if b = 0xe0 then some (3, 0xa0, 0xbf)
  else if b = 0xed then some (3, 0x80, 0x9f)
  else if b < 0xf0 then some (3, 0x80, 0xbf)
  else if b = 0xf0 then some (4, 0x90, 0xbf)
  else if b < 0xf4 then some (4, 0x80, 0xbf)
  else if b = 0xf4 then some (4, 0x80, 0x8f)
  else none

/-- The number of bytes of the first character, if there is a complete one. -/
def characterSize? (bytes : Bytes) : Option Nat :=
  match bytes with
  | [] => none
  | b :: rest =>
    match characterForm b.toNat with
    | none => none
    | some (1, _, _) => some 1
    | some (size, low, high) =>
      let others := rest.take (size - 1)
      if others.length = size - 1
        ∧ (others.head?.all fun c => low ≤ c.toNat ∧ c.toNat ≤ high)
        ∧ (others.all fun c => 0x80 ≤ c.toNat ∧ c.toNat ≤ 0xbf)
      then some size else none

/-- The number of bytes of the complete characters at the front; `bound` limits their number. -/
def validSize : Nat → Bytes → Nat
  | 0, _ => 0
  | bound + 1, bytes =>
    match characterSize? bytes with
    | none => 0
    | some size => size + validSize bound (bytes.drop size)

/-- A text that ends too early is found to be no text if more than three bytes of a block follow its
last complete character. -/
def hasBrokenBlock : Nat → Bytes → Bool
  | 0, _ => false
  | bound + 1, bytes =>
    let block := bytes.take blockSize
    if block.length < blockSize then false
    else
      let valid := validSize blockSize block
      if blockSize - valid > 3 then true else hasBrokenBlock bound (bytes.drop valid)

/-- A text of `n` bytes. -/
def readTextBlock (n : Nat) : Reader String := fun bytes =>
  let front := bytes.take n
  if front.length = n then
    match ofUtf8? front with
    | some s => .ok (s, bytes.drop n)
    | none => .error .malformed
  else if hasBrokenBlock front.length front then .error .malformed
  else .error .endOfInput

/-- The parts of a string of open length. Such strings may be nested in one another; `depth` counts
the ones that still wait for their stop. -/
def readParts (lengthOf : Head → Option (Option Nat)) (readPart : Nat → Reader α) :
    (bound depth : Nat) → Reader (List α)
  | 0, _ => fail .malformed
  | bound + 1, depth => do
    match ← readHead with
    | .stop => if depth ≤ 1 then return [] else readParts lengthOf readPart bound (depth - 1)
    | head =>
      match lengthOf head with
      | none => fail .malformed
      | some none => readParts lengthOf readPart bound (depth + 1)
      | some (some n) => do
        let part ← readPart n
        return part :: (← readParts lengthOf readPart bound depth)

def Head.bytesLength? : Head → Option (Option Nat)
  | .bytes length => some length
  | _ => none

def Head.textLength? : Head → Option (Option Nat)
  | .text length => some length
  | _ => none

/-- The bytes of a byte string after its head. -/
def readBytes (bound : Nat) : Option Nat → Reader Bytes
  | some n => takeBytes n
  | none => do return (← readParts Head.bytesLength? takeBytes bound 1).flatten

/-- The text of a text string after its head. -/
def readText (bound : Nat) : Option Nat → Reader String
  | some n => readTextBlock n
  | none => do return String.join (← readParts Head.textLength? readTextBlock bound 1)

/-- A text, whole or in pieces. -/
def readString (bound : Nat) : Reader String := do
  match ← readUntagged bound with
  | .text length => readText bound length
  | _ => fail .unexpected

/-! ## Numbers -/

/-- Leading zeros have no significance. -/
def significant (bytes : Bytes) : Bytes :=
  bytes.dropWhile (· == 0)

/-- Appends `n` bytes to a large number, which has at most 16 significant bytes. The bytes come in
blocks of 16, and a number that is too large is refused before the next block is missed. -/
def readLargePart (soFar : Bytes) (n : Nat) : Reader Bytes := fun bytes =>
  let front := bytes.take n
  let whole := if front.length = n then front else front.take (front.length / 16 * 16)
  let number := significant (soFar ++ whole)
  if number.length > 16 then .error .unexpected
  else if front.length = n then .ok (number, bytes.drop n)
  else .error .endOfInput

/-- The bytes of a large number of open length. -/
def readLargeParts : (bound depth : Nat) → Bytes → Reader Bytes
  | 0, _, _ => fail .malformed
  | bound + 1, depth, soFar => do
    match ← readHead with
    | .stop => if depth ≤ 1 then return soFar else readLargeParts bound (depth - 1) soFar
    | .bytes none => readLargeParts bound (depth + 1) soFar
    | .bytes (some n) => do readLargeParts bound depth (← readLargePart soFar n)
    | _ => fail .malformed

/-- A number that is given by its bytes. -/
def readLarge (bound : Nat) : Reader Nat := do
  match ← readHead with
  | .bytes (some n) => return BigEndian.value (← readLargePart [] n)
  | .bytes none => return BigEndian.value (← readLargeParts bound 1 [])
  | _ => fail .unexpected

/-- An integer. The tags 2 and 3 announce the bytes of a large number, positive or negative. -/
def readInteger : Nat → Reader Int
  | 0 => fail .malformed
  | bound + 1 => do
    match ← readHead with
    | .positive n => return n
    | .negative n => return -1 - (n : Int)
    | .tag 2 => return (← readLarge bound : Nat)
    | .tag 3 => return -1 - ((← readLarge bound : Nat) : Int)
    | .tag _ => readInteger bound
    | _ => fail .unexpected

/-- An integer from `low` to `high`. -/
def readIntegerIn (bound : Nat) (low high : Int) : Reader Int := do
  let n ← readInteger bound
  if low ≤ n ∧ n ≤ high then return n else fail .unexpected

def readUInt8 (bound : Nat) : Reader UInt8 := do
  return UInt8.ofNat (← readIntegerIn bound 0 (2 ^ 8 - 1)).toNat

def readUInt32 (bound : Nat) : Reader UInt32 := do
  return UInt32.ofNat (← readIntegerIn bound 0 (2 ^ 32 - 1)).toNat

/-- A size, which is a word of 64 bits. -/
def readSize (bound : Nat) : Reader Nat := do
  return (← readIntegerIn bound 0 (2 ^ 64 - 1)).toNat

def readInt32 (bound : Nat) : Reader Int32 := do
  return Int32.ofInt (← readIntegerIn bound (-(2 ^ 31)) (2 ^ 31 - 1))

/-- A floating point number of any precision. -/
def readDouble (bound : Nat) : Reader Binary64 := do
  match ← readUntagged bound with
  | .float x => return x
  | _ => fail .unexpected

/-- One of the two truth values. -/
def readBool (bound : Nat) : Reader Bool := do
  match ← readUntagged bound with
  | .simple 20 => return false
  | .simple 21 => return true
  | _ => fail .unexpected

/-! ## Sequences -/

/-- The next element of a sequence of which `length` elements remain, and what remains after it. -/
def readNext (item : Reader α) : (length : Option Nat) → Reader (Option (α × Option Nat))
  | some 0 => return none
  | some (n + 1) => do return some (← item, some n)
  | none => fun bytes =>
    match readHead bytes with
    | .error why => .error why
    | .ok (.stop, rest) => .ok (none, rest)
    | .ok _ =>
      match item bytes with
      | .error why => .error why
      | .ok (x, rest) => .ok (some (x, none), rest)

/-- Exactly `n` elements. -/
def readExactly (item : Reader α) : Nat → Reader (List α)
  | 0 => return []
  | n + 1 => do
    let x ← item
    return x :: (← readExactly item n)

/-- The elements up to a stop. -/
def readToStop (item : Reader α) : (bound : Nat) → Reader (List α)
  | 0 => fail .malformed
  | bound + 1 => do
    match ← readNext item none with
    | none => return []
    | some (x, _) => return x :: (← readToStop item bound)

/-- The elements of a sequence after its head. -/
def readElements (bound : Nat) (item : Reader α) : Option Nat → Reader (List α)
  | some n => readExactly item n
  | none => readToStop item bound

/-- A sequence. A byte string counts as the sequence of its bytes where `ofByte` gives each of them
a meaning. -/
def readSequence (bound : Nat) (item : Reader α) (ofByte : UInt8 → Option α) :
    Reader (List α) := do
  match ← readUntagged bound with
  | .array length => readElements bound item length
  | .bytes length =>
    match (← readBytes bound length).mapM ofByte with
    | some items => return items
    | none => fail .unexpected
  | _ => fail .unexpected

/-- A sequence that only an empty byte string may stand for. -/
def readList (bound : Nat) (item : Reader α) : Reader (List α) :=
  readSequence bound item fun _ => none

/-- A pair. It is left after its second element, whatever follows there. -/
def readPair (bound : Nat) (first : Reader α) (second : Reader β) : Reader (α × β) := do
  match ← readUntagged bound with
  | .array length =>
    match ← readNext first length with
    | none => fail .unexpected
    | some (x, length) =>
      match ← readNext second length with
      | none => fail .unexpected
      | some (y, _) => return (x, y)
  | .bytes length =>
    -- a byte is not the text that the first element has to be
    let _ ← readBytes bound length
    fail .unexpected
  | _ => fail .unexpected

/-- A column: a byte string or a sequence of bytes. -/
def readColumn (bound : Nat) : Reader Bytes := do
  match ← readUntagged bound with
  | .bytes length => readBytes bound length
  | .array length => readElements bound (readUInt8 bound) length
  | _ => fail .unexpected

/-! ## Maps -/

/-- The bytes of a key, which is a text or a byte string of moderate length. -/
def readKey (bound : Nat) : Reader Bytes := do
  match ← readUntagged bound with
  | .text (some n) =>
    if n ≤ blockSize then
      let key ← takeBytes n
      if (ofUtf8? key).isSome then return key else fail .malformed
    else fail .unexpected
  | .bytes (some n) => if n ≤ blockSize then takeBytes n else fail .unexpected
  | _ => fail .unexpected

/-- Feeds each key to `entry`, which reads its value. -/
def readEntries (bound : Nat) (entry : Bytes → σ → Reader σ) (key : Reader Bytes) :
    Option Nat → σ → Reader σ
  | some n, state => exactly n state
  | none, state => toStop bound state
where
  exactly : Nat → σ → Reader σ
    | 0, state => return state
    | n + 1, state => do
      let k ← key
      exactly n (← entry k state)
  toStop : Nat → σ → Reader σ
    | 0, _ => fail .malformed
    | bound + 1, state => do
      match ← readNext key none with
      | none => return state
      | some (k, _) => do toStop bound (← entry k state)

/-- A map, as what its entries make of a first state. -/
def readMap (bound : Nat) (entry : Bytes → σ → Reader σ) (first : σ) : Reader σ := do
  match ← readUntagged bound with
  | .map length => readEntries bound entry (readKey bound) length first
  | _ => fail .unexpected

/-- The head of the next item, which stays in front. -/
def peekHead : Reader Head := fun bytes =>
  match readHead bytes with
  | .error why => .error why
  | .ok (head, _) => .ok (head, bytes)

/-- A tag and the head after it announce a large number of at most 16 bytes. -/
def announcesLarge (tag : Nat) (head : Head) : Bool :=
  (tag == 2 || tag == 3) &&
    match head with
    | .bytes (some n) => n ≤ 16
    | _ => false

/-- Passes over a large number, which has to fit into a word of 128 bits: without a sign if it is
positive, with a sign if it is negative. -/
def skipLarge (bound tag : Nat) : Reader Unit := do
  let n ← readLarge bound
  if tag = 3 ∧ 2 ^ 127 ≤ n then fail .unexpected else return

/-- Passes over an item. What it holds is passed over by `inner`, if it may hold anything. A large
number holds nothing. -/
def skipItem (bound : Nat) (inner : Option (Reader Unit)) : Reader Unit := do
  match ← readHead with
  | .positive _ => return
  | .negative _ => return
  | .float _ => return
  | .bytes length => do
    let _ ← readBytes bound length
  | .text length => do
    let _ ← readText bound length
  | .array length =>
    match inner with
    | none => fail .tooDeep
    | some item => do
      let _ ← readElements bound item length
  | .map length =>
    match inner with
    | none => fail .tooDeep
    | some item => readEntries bound (fun _ _ => item) (item *> pure []) length ()
  | .tag n => do
    if announcesLarge n (← peekHead) then skipLarge bound n
    else
      match inner with
      | none => fail .tooDeep
      | some item => item
  | .simple n => if 20 ≤ n ∧ n ≤ 23 then return else fail .unexpected
  | .stop => fail .unexpected

/-- Passes over an item, in which sequences, maps and tags may be nested `depth` deep. -/
def skip (bound : Nat) : (depth : Nat) → Reader Unit
  | 0 => skipItem bound none
  | depth + 1 => skipItem bound (some (skip bound depth))

end EventModel.Wire
