import EventModel.Number.Binary

/-!
# Conversion between the binary formats

Widening a binary32 number and narrowing the result gives the number back, except that a signalling
NaN becomes quiet. Narrowing never gives a signalling NaN.
-/

namespace EventModel

namespace BinaryFormat

/-- A multiple of the unit is not rounded. -/
theorem roundShift_mul (m k : Nat) : roundShift (m * 2 ^ k) k = m := by
  have hpos : 0 < 2 ^ k := Nat.two_pow_pos k
  have hdiv : m * 2 ^ k / 2 ^ k = m := Nat.mul_div_cancel m hpos
  have hmod : m * 2 ^ k % 2 ^ k = 0 := Nat.mul_mod_left m (2 ^ k)
  unfold roundShift
  simp only [hdiv, hmod]
  rw [if_neg (by omega)]

theorem roundShift_zero (k : Nat) : roundShift 0 k = 0 := by
  have hzero := roundShift_mul 0 k
  rwa [Nat.zero_mul] at hzero

/-- Rounding adds at most one unit. -/
theorem roundShift_le {m k n : Nat} (h : m < n * 2 ^ k) : roundShift m k ≤ n := by
  have hdiv : m / 2 ^ k < n := Nat.div_lt_of_lt_mul (by rwa [Nat.mul_comm])
  unfold roundShift
  dsimp only
  split <;> omega

/-! ## Fields of an assembled pattern -/

theorem assemble_binary32 (s e m : Nat) :
    binary32.assemble s e m = s * 2 ^ 31 + e * 2 ^ 23 + m := rfl

theorem assemble_binary64 (s e m : Nat) :
    binary64.assemble s e m = s * 2 ^ 63 + e * 2 ^ 52 + m := rfl

/-- The fields of a binary64 pattern are what it was assembled from. -/
theorem fields_assemble {s e m : Nat} (hs : s < 2) (he : e < 2 ^ 11) (hm : m < 2 ^ 52) :
    binary64.sign (binary64.assemble s e m) = s ∧
      binary64.exponent (binary64.assemble s e m) = e ∧
        binary64.fraction (binary64.assemble s e m) = m := by
  have hassemble := assemble_binary64 s e m
  have hsign : binary64.sign (binary64.assemble s e m) =
      binary64.assemble s e m / 2 ^ 63 % 2 := rfl
  have hexponent : binary64.exponent (binary64.assemble s e m) =
      binary64.assemble s e m / 2 ^ 52 % 2 ^ 11 := rfl
  have hfraction : binary64.fraction (binary64.assemble s e m) =
      binary64.assemble s e m % 2 ^ 52 := rfl
  refine ⟨?_, ?_, ?_⟩ <;> omega

/-- A binary32 pattern is assembled from its fields. -/
theorem assemble_fields {bits : Nat} (hbits : bits < 2 ^ 32) :
    binary32.assemble (binary32.sign bits) (binary32.exponent bits) (binary32.fraction bits) =
      bits := by
  have hsign : binary32.sign bits = bits / 2 ^ 31 % 2 := rfl
  have hexponent : binary32.exponent bits = bits / 2 ^ 23 % 2 ^ 8 := rfl
  have hfraction : binary32.fraction bits = bits % 2 ^ 23 := rfl
  rw [assemble_binary32]
  omega

/-- A binary64 pattern is assembled from its fields. -/
theorem assemble_fields_binary64 {bits : Nat} (hbits : bits < 2 ^ 64) :
    binary64.assemble (binary64.sign bits) (binary64.exponent bits) (binary64.fraction bits) =
      bits := by
  have hsign : binary64.sign bits = bits / 2 ^ 63 % 2 := rfl
  have hexponent : binary64.exponent bits = bits / 2 ^ 52 % 2 ^ 11 := rfl
  have hfraction : binary64.fraction bits = bits % 2 ^ 52 := rfl
  rw [assemble_binary64]
  omega

theorem sign_lt (f : BinaryFormat) (bits : Nat) : f.sign bits < 2 :=
  Nat.mod_lt _ (by decide)

theorem exponent_lt (f : BinaryFormat) (bits : Nat) : f.exponent bits < 2 ^ f.exponentBits :=
  Nat.mod_lt _ (Nat.two_pow_pos _)

theorem fraction_lt (f : BinaryFormat) (bits : Nat) : f.fraction bits < 2 ^ f.fractionBits :=
  Nat.mod_lt _ (Nat.two_pow_pos _)

/-! ## There and back -/

/-- The pattern, with the quiet bit set if it is a NaN. -/
def quiet (f : BinaryFormat) (bits : Nat) : Nat :=
  if f.isNaN bits then f.assemble (f.sign bits) f.topExponent (f.quieted (f.fraction bits))
  else bits

theorem isNaN_iff {f : BinaryFormat} {bits : Nat} :
    f.isNaN bits = true ↔ f.exponent bits = f.topExponent ∧ f.fraction bits ≠ 0 := by
  simp [isNaN]

theorem narrow_assemble {s e m : Nat} (hs : s < 2) (he : e < 2 ^ 11) (hm : m < 2 ^ 52) :
    narrow binary64 binary32 (binary64.assemble s e m) =
      if e = 2047 then binary32.assemble s 255 (if m = 0 then 0 else binary32.quieted (m / 2 ^ 29))
      else if e ≤ 896 then
        binary32.assemble s 0
          (roundShift (if e = 0 then m else 2 ^ 52 + m) (29 + (896 + 1 - max e 1)))
      else if e - 896 ≥ 255 then binary32.assemble s 255 0
      else binary32.assemble s (e - 896 - 1) (roundShift (if e = 0 then m else 2 ^ 52 + m) 29) := by
  obtain ⟨hsign, hexponent, hfraction⟩ := fields_assemble hs he hm
  have htop : binary64.topExponent = 2047 := rfl
  have htop' : binary32.topExponent = 255 := rfl
  have hgap : binary64.fractionBits - binary32.fractionBits = 29 := rfl
  have hbias : binary64.bias - binary32.bias = 896 := rfl
  have hbits : binary64.fractionBits = 52 := rfl
  unfold narrow
  dsimp only
  rw [hsign, hexponent, hfraction, htop, htop', hgap, hbias, hbits]

/-- The leading one of a subnormal number and what follows it. -/
theorem leading_one {m : Nat} (hm : m ≠ 0) (hlt : m < 2 ^ 23) :
    Nat.log2 m ≤ 22 ∧ 2 ^ Nat.log2 m ≤ m ∧ m < 2 * 2 ^ Nat.log2 m := by
  have hlow : 2 ^ Nat.log2 m ≤ m := Nat.log2_self_le hm
  have hhigh : m < 2 ^ (Nat.log2 m + 1) := Nat.lt_log2_self
  have hlog : Nat.log2 m < 23 := (Nat.log2_lt hm).2 hlt
  refine ⟨by omega, hlow, ?_⟩
  rw [Nat.pow_succ] at hhigh
  omega

theorem widen_binary32 (bits : Nat) :
    widen binary32 binary64 bits =
      if binary32.exponent bits = 255 then
        binary64.assemble (binary32.sign bits) 2047
          (if binary32.fraction bits = 0 then 0
            else binary64.quieted (binary32.fraction bits * 2 ^ 29))
      else if binary32.exponent bits = 0 then
        if binary32.fraction bits = 0 then binary64.assemble (binary32.sign bits) 0 0
        else
          binary64.assemble (binary32.sign bits)
            (1023 + 1 + Nat.log2 (binary32.fraction bits) - 127 - 23)
            ((binary32.fraction bits - 2 ^ Nat.log2 (binary32.fraction bits)) *
              2 ^ (52 - Nat.log2 (binary32.fraction bits)))
      else
        binary64.assemble (binary32.sign bits) (binary32.exponent bits + 1023 - 127)
          (binary32.fraction bits * 2 ^ 29) := by
  have htop : binary32.topExponent = 255 := rfl
  have htop' : binary64.topExponent = 2047 := rfl
  have hgap : binary64.fractionBits - binary32.fractionBits = 29 := rfl
  have hbias : binary64.bias = 1023 := rfl
  have hbias' : binary32.bias = 127 := rfl
  have hbits : binary64.fractionBits = 52 := rfl
  have hbits' : binary32.fractionBits = 23 := rfl
  unfold widen
  dsimp only
  rw [htop, htop', hgap, hbias, hbias', hbits, hbits']

theorem quieted_binary32 (n : Nat) :
    binary32.quieted n = if n < 2 ^ 22 then n + 2 ^ 22 else n := rfl

theorem quieted_binary64 (n : Nat) :
    binary64.quieted n = if n < 2 ^ 51 then n + 2 ^ 51 else n := rfl

/-- The quiet bit of a binary64 fraction stays within its field. -/
theorem quieted_lt {m : Nat} (hm : m < 2 ^ 52) : binary64.quieted m < 2 ^ 52 := by
  rw [quieted_binary64]
  split
  case isTrue hlow =>
    calc
      m + 2 ^ 51 < 2 ^ 51 + 2 ^ 51 := Nat.add_lt_add_right hlow (2 ^ 51)
      _ = 2 ^ 52 := by decide
  case isFalse => exact hm

/-- Infinities and NaNs keep their leading bits. -/
theorem narrow_widen_top {s m : Nat} (hs : s < 2) (hm : m < 2 ^ 23) :
    narrow binary64 binary32
        (binary64.assemble s 2047 (if m = 0 then 0 else binary64.quieted (m * 2 ^ 29))) =
      binary32.assemble s 255 (if m = 0 then 0 else binary32.quieted m) := by
  by_cases hzero : m = 0
  · rw [if_pos hzero, if_pos hzero, narrow_assemble hs (by decide) (by decide)]
    simp
  · have hlt : binary64.quieted (m * 2 ^ 29) < 2 ^ 52 := quieted_lt (by omega)
    have hne : binary64.quieted (m * 2 ^ 29) ≠ 0 := by
      rw [quieted_binary64]
      split <;> omega
    have hdiv : binary32.quieted (binary64.quieted (m * 2 ^ 29) / 2 ^ 29) = binary32.quieted m := by
      rw [quieted_binary64, quieted_binary32, quieted_binary32]
      split <;> split <;> split <;> omega
    rw [if_neg hzero, if_neg hzero, narrow_assemble hs (by decide) hlt, if_pos rfl, if_neg hne,
      hdiv]

/-- A subnormal number is normal in the wider format, and its unit is that of the narrow one. -/
theorem narrow_widen_subnormal {s m : Nat} (hs : s < 2) (hne : m ≠ 0) (hm : m < 2 ^ 23) :
    narrow binary64 binary32
        (binary64.assemble s (1023 + 1 + Nat.log2 m - 127 - 23)
          ((m - 2 ^ Nat.log2 m) * 2 ^ (52 - Nat.log2 m))) =
      binary32.assemble s 0 m := by
  obtain ⟨hlog, hlow, hhigh⟩ := leading_one hne hm
  generalize Nat.log2 m = p at *
  have hunit : 2 ^ p * 2 ^ (52 - p) = 2 ^ 52 := by
    rw [← Nat.pow_add]
    congr 1
    omega
  have hfraction : (m - 2 ^ p) * 2 ^ (52 - p) < 2 ^ 52 := by
    rw [← hunit]
    exact Nat.mul_lt_mul_of_pos_right (by omega) (Nat.two_pow_pos _)
  have hsignificand : 2 ^ 52 + (m - 2 ^ p) * 2 ^ (52 - p) = m * 2 ^ (52 - p) := by
    rw [← hunit, ← Nat.add_mul]
    congr 1
    omega
  have hshift : 29 + (896 + 1 - max (1023 + 1 + p - 127 - 23) 1) = 52 - p := by omega
  rw [narrow_assemble hs (by omega) hfraction, if_neg (by omega), if_pos (by omega),
    if_neg (by omega), hsignificand, hshift, roundShift_mul]

theorem narrow_widen_normal {s e m : Nat} (hs : s < 2) (he : 0 < e) (he' : e < 255)
    (hm : m < 2 ^ 23) :
    narrow binary64 binary32 (binary64.assemble s (e + 1023 - 127) (m * 2 ^ 29)) =
      binary32.assemble s e m := by
  have hsignificand : 2 ^ 52 + m * 2 ^ 29 = (2 ^ 23 + m) * 2 ^ 29 := by omega
  rw [narrow_assemble hs (by omega) (by omega), if_neg (by omega), if_neg (by omega),
    if_neg (by omega), if_neg (by omega), hsignificand, roundShift_mul, assemble_binary32,
    assemble_binary32]
  omega

/-- Widening is exact but for the quiet bit of NaNs. -/
theorem narrow_widen {bits : Nat} (hbits : bits < 2 ^ 32) :
    narrow binary64 binary32 (widen binary32 binary64 bits) = binary32.quiet bits := by
  have hs := sign_lt binary32 bits
  have he : binary32.exponent bits < 2 ^ 8 := exponent_lt binary32 bits
  have hm : binary32.fraction bits < 2 ^ 23 := fraction_lt binary32 bits
  have hfields := assemble_fields hbits
  have htop : binary32.topExponent = 255 := rfl
  unfold quiet
  rw [widen_binary32]
  by_cases hspecial : binary32.exponent bits = 255
  · rw [if_pos hspecial, narrow_widen_top hs hm]
    by_cases hzero : binary32.fraction bits = 0
    · have hnan : ¬ binary32.isNaN bits = true := by simp [isNaN_iff, hzero]
      rw [if_pos hzero, if_neg hnan]
      rwa [hspecial, hzero] at hfields
    · have hnan : binary32.isNaN bits = true := isNaN_iff.2 ⟨hspecial, hzero⟩
      rw [if_neg hzero, if_pos hnan, htop]
  · have hnan : ¬ binary32.isNaN bits = true := fun h => hspecial (isNaN_iff.1 h).1
    rw [if_neg hspecial, if_neg hnan]
    by_cases hsmall : binary32.exponent bits = 0
    · rw [if_pos hsmall]
      by_cases hzero : binary32.fraction bits = 0
      · rw [if_pos hzero, narrow_assemble hs (by decide) (by decide)]
        rw [hsmall, hzero] at hfields
        rwa [if_neg (by decide), if_pos (by decide), if_pos rfl, roundShift_zero]
      · rw [if_neg hzero, narrow_widen_subnormal hs hzero hm]
        rwa [hsmall] at hfields
    · rw [if_neg hsmall, narrow_widen_normal hs (by omega) (by omega) hm, hfields]

/-! ## Signalling NaNs -/

/-- A NaN whose quiet bit is not set. -/
def isSignalling (f : BinaryFormat) (bits : Nat) : Bool :=
  f.isNaN bits && decide (f.fraction bits < 2 ^ (f.fractionBits - 1))

theorem isSignalling_binary32 {bits : Nat} :
    binary32.isSignalling bits = true ↔
      bits / 2 ^ 23 % 2 ^ 8 = 255 ∧ bits % 2 ^ 23 ≠ 0 ∧ bits % 2 ^ 23 < 2 ^ 22 := by
  have hexponent : binary32.exponent bits = bits / 2 ^ 23 % 2 ^ 8 := rfl
  have hfraction : binary32.fraction bits = bits % 2 ^ 23 := rfl
  have htop : binary32.topExponent = 255 := rfl
  have hquiet : 2 ^ (binary32.fractionBits - 1) = 2 ^ 22 := rfl
  unfold isSignalling
  rw [Bool.and_eq_true, isNaN_iff, decide_eq_true_iff, hexponent, hfraction, htop, hquiet,
    and_assoc]

/-- Only a signalling NaN is changed. -/
theorem quiet_of_not_isSignalling {bits : Nat} (hbits : bits < 2 ^ 32)
    (hquiet : binary32.isSignalling bits = false) : binary32.quiet bits = bits := by
  have hfields := assemble_fields hbits
  unfold quiet
  split
  case isFalse => rfl
  case isTrue hnan =>
    have hhigh : ¬ binary32.fraction bits < 2 ^ 22 := by
      intro hlow
      have hsignals : binary32.isSignalling bits = true := by
        unfold isSignalling
        rw [hnan, Bool.true_and]
        exact decide_eq_true hlow
      rw [hquiet] at hsignals
      cases hsignals
    rw [quieted_binary32, if_neg hhigh, ← (isNaN_iff.1 hnan).1]
    exact hfields

/-- An exponent field that is full at most by a carry is that of a number or of an infinity. -/
theorem not_isSignalling_assemble {s e m : Nat} (h : e * 2 ^ 23 + m ≤ 255 * 2 ^ 23) :
    binary32.isSignalling (binary32.assemble s e m) = false := by
  have hassemble := assemble_binary32 s e m
  have hnot : ¬ binary32.isSignalling (binary32.assemble s e m) = true := by
    rw [isSignalling_binary32]
    omega
  exact Bool.eq_false_iff.2 hnot

theorem not_isSignalling_quieted {s m : Nat} (hm : m < 2 ^ 23) :
    binary32.isSignalling (binary32.assemble s 255 (binary32.quieted m)) = false := by
  have hassemble := assemble_binary32 s 255 (binary32.quieted m)
  have hquieted := quieted_binary32 m
  have hnot : ¬ binary32.isSignalling (binary32.assemble s 255 (binary32.quieted m)) = true := by
    rw [isSignalling_binary32]
    split at hquieted <;> omega
  exact Bool.eq_false_iff.2 hnot

/-- A significand that is shifted out to the width of the narrow fraction. -/
theorem roundShift_significand_le {e m k n : Nat} (hm : m < 2 ^ 52) (hn : 2 ^ 53 ≤ n * 2 ^ k) :
    roundShift (if e = 0 then m else 2 ^ 52 + m) k ≤ n := by
  refine roundShift_le ?_
  have htwice : 2 ^ 52 + m < 2 ^ 53 := by omega
  split
  · exact Nat.lt_of_lt_of_le (Nat.lt_of_le_of_lt (Nat.le_add_left m (2 ^ 52)) htwice) hn
  · exact Nat.lt_of_lt_of_le htwice hn

/-- The narrower number is never a signalling NaN. -/
theorem not_isSignalling_narrow {bits : Nat} (hbits : bits < 2 ^ 64) :
    binary32.isSignalling (narrow binary64 binary32 bits) = false := by
  have hs := sign_lt binary64 bits
  have he : binary64.exponent bits < 2 ^ 11 := exponent_lt binary64 bits
  have hm : binary64.fraction bits < 2 ^ 52 := fraction_lt binary64 bits
  rw [← assemble_fields_binary64 hbits, narrow_assemble hs he hm]
  -- the cases of rounding, each a carry below the full exponent field
  split
  case isTrue htop =>
    split
    · exact not_isSignalling_assemble (by decide)
    · have hlead : binary64.fraction bits / 2 ^ 29 < 2 ^ 23 := by omega
      exact not_isSignalling_quieted hlead
  case isFalse htop =>
    split
    case isTrue hsmall =>
      have hunit : 2 ^ 53 ≤ 2 ^ 23 * 2 ^ (29 + (896 + 1 - max (binary64.exponent bits) 1)) := by
        rw [← Nat.pow_add]
        exact Nat.pow_le_pow_right (by decide) (by omega)
      have hround := roundShift_significand_le (e := binary64.exponent bits) hm hunit
      exact not_isSignalling_assemble (by omega)
    case isFalse hnormal =>
      split
      case isTrue => exact not_isSignalling_assemble (by decide)
      case isFalse hlarge =>
        have hunit : 2 ^ 53 ≤ 2 ^ 24 * 2 ^ 29 := by decide
        have hround := roundShift_significand_le (e := binary64.exponent bits) hm hunit
        exact not_isSignalling_assemble (by omega)

/-- Only the fields of a pattern matter. -/
theorem narrow_mod (bits : Nat) :
    narrow binary64 binary32 (bits % 2 ^ 64) = narrow binary64 binary32 bits := by
  have hsign : binary64.sign (bits % 2 ^ 64) = binary64.sign bits := by
    change bits % 2 ^ 64 / 2 ^ 63 % 2 = bits / 2 ^ 63 % 2
    omega
  have hexponent : binary64.exponent (bits % 2 ^ 64) = binary64.exponent bits := by
    change bits % 2 ^ 64 / 2 ^ 52 % 2 ^ 11 = bits / 2 ^ 52 % 2 ^ 11
    omega
  have hfraction : binary64.fraction (bits % 2 ^ 64) = binary64.fraction bits := by
    change bits % 2 ^ 64 % 2 ^ 52 = bits % 2 ^ 52
    omega
  unfold narrow
  rw [hsign, hexponent, hfraction]

theorem isSignalling_mod (bits : Nat) :
    binary32.isSignalling (bits % 2 ^ 32) = binary32.isSignalling bits := by
  have hexponent : bits % 2 ^ 32 / 2 ^ 23 % 2 ^ 8 = bits / 2 ^ 23 % 2 ^ 8 := by omega
  have hfraction : bits % 2 ^ 32 % 2 ^ 23 = bits % 2 ^ 23 := by omega
  rw [Bool.eq_iff_iff, isSignalling_binary32, isSignalling_binary32, hexponent, hfraction]

end BinaryFormat

namespace Binary32

/-- A NaN whose quiet bit is not set. -/
def isSignalling (x : Binary32) : Bool :=
  BinaryFormat.binary32.isSignalling x.bits.toNat

/-- The number, a signalling NaN made quiet. -/
def quiet (x : Binary32) : Binary32 :=
  ⟨UInt32.ofNat (BinaryFormat.binary32.quiet x.bits.toNat)⟩

theorem narrow_widen (x : Binary32) : x.widen.narrow = x.quiet := by
  have hbits : x.widen.bits.toNat =
      BinaryFormat.widen .binary32 .binary64 x.bits.toNat % 2 ^ 64 := UInt64.toNat_ofNat'
  unfold Binary64.narrow quiet
  rw [hbits, BinaryFormat.narrow_mod, BinaryFormat.narrow_widen x.bits.toNat_lt]

theorem quiet_of_not_isSignalling {x : Binary32} (hquiet : x.isSignalling = false) :
    x.quiet = x := by
  have hbits := BinaryFormat.quiet_of_not_isSignalling x.bits.toNat_lt hquiet
  unfold quiet
  rw [hbits, UInt32.ofNat_toNat]

/-- The number of a byte is not a NaN. -/
theorem not_isSignalling_ofNat (b : UInt8) : (ofNat b.toNat).isSignalling = false := by
  have hbytes : ∀ n : Fin 256, (ofNat n.val).isSignalling = false := by decide +kernel
  exact hbytes ⟨b.toNat, b.toNat_lt⟩

end Binary32

namespace Binary64

theorem not_isSignalling_narrow (x : Binary64) : x.narrow.isSignalling = false := by
  have hquiet := BinaryFormat.not_isSignalling_narrow x.bits.toNat_lt
  have hbits : x.narrow.bits.toNat =
      BinaryFormat.narrow .binary64 .binary32 x.bits.toNat % 2 ^ 32 := UInt32.toNat_ofNat'
  unfold Binary32.isSignalling
  rwa [hbits, BinaryFormat.isSignalling_mod]

end Binary64

end EventModel
