import EventModel.Wire.Body

/-!
# Reading back what was written

`Reads r enc x` says that the reader `r` takes exactly the bytes `enc` from the front of any input,
makes `x` of them and leaves the rest alone. It goes through sequencing, so that a format is read
back as soon as each of its parts is. This module has the heads of items and the floating point
numbers.
-/

namespace EventModel.Wire

variable {α β : Type}

/-- The reader takes the bytes `enc`, whatever follows them, and its result is `x`. -/
def Reads (r : Reader α) (enc : Bytes) (x : α) : Prop :=
  ∀ rest, r (enc ++ rest) = .ok (x, rest)

theorem reader_bind_apply (r : Reader α) (f : α → Reader β) (bytes : Bytes) :
    (r >>= f) bytes =
      match r bytes with
      | .ok (x, rest) => f x rest
      | .error why => .error why := by
  change StateT.bind r f bytes = _
  unfold StateT.bind
  rcases r bytes with why | ⟨x, rest⟩ <;> rfl

theorem Reads.pure (x : α) : Reads (pure x) [] x := by
  intro rest
  rfl

theorem Reads.bind {r : Reader α} {f : α → Reader β} {enc enc' : Bytes} {x : α} {y : β}
    (hr : Reads r enc x) (hf : Reads (f x) enc' y) : Reads (r >>= f) (enc ++ enc') y := by
  intro rest
  have hfirst := hr (enc' ++ rest)
  have hsecond := hf rest
  rw [List.append_assoc, reader_bind_apply, hfirst]
  exact hsecond

theorem Reads.map {r : Reader α} {enc : Bytes} {x : α} (f : α → β) (hr : Reads r enc x) :
    Reads (f <$> r) enc (f x) := by
  intro rest
  have hread := hr rest
  change StateT.map f r (enc ++ rest) = _
  unfold StateT.map
  rw [hread]
  rfl

/-- The last step of a reader takes nothing. -/
theorem Reads.bind_nil {r : Reader α} {f : α → Reader β} {enc : Bytes} {x : α} {y : β}
    (hr : Reads r enc x) (hf : Reads (f x) [] y) : Reads (r >>= f) enc y := by
  have hall := hr.bind hf
  rwa [List.append_nil] at hall

theorem reads_takeBytes (bytes : Bytes) : Reads (takeBytes bytes.length) bytes bytes := by
  intro rest
  simp [takeBytes]

theorem reads_takeBytes_of_length {n : Nat} {bytes : Bytes} (h : bytes.length = n) :
    Reads (takeBytes n) bytes bytes := by
  have hall := reads_takeBytes bytes
  rwa [h] at hall

theorem reads_takeByte (b : UInt8) : Reads takeByte [b] b := by
  intro rest
  rfl

/-! ## Heads -/

/-- The head that a major type and an argument stand for. -/
def Major.head (major : Major) (n : Nat) : Head :=
  match major with
  | positive => .positive n
  | negative => .negative n
  | bytes => .bytes (some n)
  | text => .text (some n)
  | array => .array (some n)
  | map => .map (some n)
  | tag => .tag n
  | other => .simple n

theorem headOf_code {major : Major} (hmajor : major ≠ .other) {argument : Argument} {n : Nat}
    (h : argument.number? = some n) : headOf major.code argument = some (major.head n) := by
  cases major with
  | other => exact absurd rfl hmajor
  | _ => simp [headOf, Major.code, Major.head, h]

/-- The first byte of a head holds the major type and what the low bits announce. -/
theorem toNat_lead (major : Major) {low : Nat} (hlow : low < 32) :
    (UInt8.ofNat (32 * major.code + low)).toNat = 32 * major.code + low := by
  have hcode : major.code ≤ 7 := by cases major <;> decide
  rw [UInt8.toNat_ofNat']
  exact Nat.mod_eq_of_lt (by omega)

theorem reads_readLong {width : Nat} {n : Nat} (hn : n < 256 ^ width) :
    Reads (readLong width) (BigEndian.encode width n) (.long width n) := by
  have htake : Reads (takeBytes width) (BigEndian.encode width n) (BigEndian.encode width n) :=
    reads_takeBytes_of_length (BigEndian.length_encode width n)
  have hvalue : BigEndian.value (BigEndian.encode width n) = n := by
    rw [BigEndian.value_encode]
    exact Nat.mod_eq_of_lt hn
  refine htake.bind_nil ?_
  rw [hvalue]
  exact .pure _

/-- A head is read from its first byte and the argument that this announces. -/
theorem reads_readHead_of_argument {major : Major} {low n : Nat} {enc : Bytes} {head : Head}
    {argument : Argument} (hlow : low < 32) (hargument : Reads (readArgument low) enc argument)
    (hhead : headOf major.code argument = some head) (hn : n = 32 * major.code + low) :
    Reads readHead (UInt8.ofNat n :: enc) head := by
  have hlead := toNat_lead major hlow
  have hmod : (UInt8.ofNat n).toNat % 32 = low := by
    rw [hn, hlead]
    omega
  have hdiv : (UInt8.ofNat n).toNat / 32 = major.code := by
    rw [hn, hlead]
    omega
  refine (reads_takeByte (UInt8.ofNat n)).bind ?_
  rw [hmod, hdiv]
  refine hargument.bind_nil ?_
  rw [hhead]
  exact .pure head

/-- A head whose argument has bytes of its own. -/
theorem reads_readHead_long {major : Major} (hmajor : major ≠ .other) {low width n : Nat}
    (hlow : low < 32) (hwidth : readArgument low = readLong width) (hn : n < 256 ^ width) :
    Reads readHead (UInt8.ofNat (32 * major.code + low) :: BigEndian.encode width n)
      (major.head n) := by
  have hargument : Reads (readArgument low) (BigEndian.encode width n) (.long width n) := by
    rw [hwidth]
    exact reads_readLong hn
  exact reads_readHead_of_argument hlow hargument (headOf_code hmajor rfl) rfl

/-- The shortest head of a number is read back as its head. -/
theorem reads_readHead {major : Major} (hmajor : major ≠ .other) {n : Nat} (hn : n < 2 ^ 64) :
    Reads readHead (encodeHead major n) (major.head n) := by
  unfold encodeHead
  dsimp only
  -- one case for each width of the argument
  split
  · rename_i hshort
    have hargument : Reads (readArgument n) [] (.short n) := by
      unfold readArgument
      rw [if_pos hshort]
      exact .pure _
    exact reads_readHead_of_argument (by omega) hargument (headOf_code hmajor rfl) rfl
  · split
    · rename_i hbyte
      exact reads_readHead_long hmajor (by decide) rfl hbyte
    · split
      · rename_i hword
        exact reads_readHead_long hmajor (by decide) rfl hword
      · split
        · rename_i hword
          exact reads_readHead_long hmajor (by decide) rfl hword
        · exact reads_readHead_long hmajor (by decide) rfl hn

/-! ## Numbers and truth values -/

/-- A head of the last major type whose argument has bytes of its own. -/
theorem reads_readHead_other (low : Nat) {width n : Nat} {head : Head} (hlow : low < 32)
    (hwidth : readArgument low = readLong width) (hn : n < 256 ^ width)
    (hhead : headOf 7 (.long width n) = some head) :
    Reads readHead (UInt8.ofNat (32 * 7 + low) :: BigEndian.encode width n) head := by
  have hargument : Reads (readArgument low) (BigEndian.encode width n) (.long width n) := by
    rw [hwidth]
    exact reads_readLong hn
  have hcode : headOf Major.other.code (.long width n) = some head := hhead
  exact reads_readHead_of_argument hlow hargument hcode rfl

/-- A floating point number is read back bit for bit, in whichever format it was written. -/
theorem reads_readHead_float (x : Binary64) : Reads readHead (encodeFloat x) (.float x) := by
  unfold encodeFloat
  cases hhalf : x.binary16? with
  | some bits =>
    have hhead : headOf 7 (.long 2 bits.toNat) = some (.float x) := by
      simp [headOf, Binary64.ofBinary16_of_binary16? hhalf]
    exact reads_readHead_other 25 (by decide) rfl bits.toNat_lt hhead
  | none =>
    cases hsingle : x.binary32? with
    | some y =>
      have hhead : headOf 7 (.long 4 y.bits.toNat) = some (.float x) := by
        simp [headOf, Binary64.widen_of_binary32? hsingle]
      exact reads_readHead_other 26 (by decide) rfl y.bits.toNat_lt hhead
    | none =>
      have hhead : headOf 7 (.long 8 x.bits.toNat) = some (.float x) := by
        simp [headOf]
      exact reads_readHead_other 27 (by decide) rfl x.bits.toNat_lt hhead

theorem reads_readHead_bool (b : Bool) :
    Reads readHead (encodeBool b) (.simple (if b then 21 else 20)) := by
  have hshort : ∀ low, low < 24 → Reads readHead [UInt8.ofNat (32 * 7 + low)] (.simple low) := by
    intro low hlow
    have hargument : Reads (readArgument low) [] (.short low) := by
      unfold readArgument
      rw [if_pos hlow]
      exact .pure _
    have hcode : headOf Major.other.code (.short low) = some (.simple low) := rfl
    exact reads_readHead_of_argument (by omega) hargument hcode rfl
  cases b with
  | false => exact hshort 20 (by decide)
  | true => exact hshort 21 (by decide)

end EventModel.Wire
