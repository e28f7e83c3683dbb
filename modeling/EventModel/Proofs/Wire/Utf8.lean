import Mathlib.Data.String.Basic
import Mathlib.Tactic.SplitIfs
import EventModel.Proofs.Wire.Reader

/-!
# The order of texts and that of their bytes

Texts are compared by their characters and byte strings by their bytes. UTF-8 keeps the order: a
character with a greater number has a greater form, wherever the two forms first differ. So texts in
ascending order have ascending bytes, and the other way round (`utf8_lt_utf8_iff`).
-/

namespace EventModel.Wire

variable {l l' : Bytes} {m n : Nat}

theorem ofNat_cons_lt (hlt : m < n) (hn : n < 256) : UInt8.ofNat m :: l < UInt8.ofNat n :: l' := by
  refine List.cons_lt_cons_iff.2 (.inl (UInt8.lt_iff_toNat_lt.2 ?_))
  rw [UInt8.toNat_ofNat', UInt8.toNat_ofNat']
  omega

/-- If the first bytes are the same, the others decide. -/
theorem ofNat_cons_lt_of_le (hle : m ≤ n) (hn : n < 256) (htail : m = n → l < l') :
    UInt8.ofNat m :: l < UInt8.ofNat n :: l' := by
  rcases Nat.lt_or_eq_of_le hle with hlt | heq
  · exact ofNat_cons_lt hlt hn
  · exact List.cons_lt_cons_iff.2 (.inr ⟨congrArg UInt8.ofNat heq, htail heq⟩)

theorem toNat_val_lt (c : Char) : c.val.toNat < 0x110000 := by
  rcases c.valid with hbelow | ⟨-, habove⟩
  · exact Nat.lt_of_lt_of_le hbelow (by decide)
  · exact habove

theorem utf8EncodeChar_ne_nil (c : Char) : String.utf8EncodeChar c ≠ [] := by
  unfold String.utf8EncodeChar
  dsimp only
  split_ifs <;> exact List.cons_ne_nil _ _

/-- The forms of two characters are in the order of the characters, whatever follows them. -/
theorem utf8EncodeChar_append_lt {c d : Char} (h : c < d) (l l' : Bytes) :
    String.utf8EncodeChar c ++ l < String.utf8EncodeChar d ++ l' := by
  have hlt : c.val.toNat < d.val.toNat := UInt32.lt_iff_toNat_lt.1 (Char.lt_def.1 h)
  have hmax : d.val.toNat < 0x110000 := toNat_val_lt d
  unfold String.utf8EncodeChar
  dsimp only
  generalize c.val.toNat = v at hlt
  generalize d.val.toNat = w at hlt hmax
  split_ifs
  -- a longer form starts with a greater byte
  all_goals try exact ofNat_cons_lt (by omega) (by omega)
  -- forms of two, three and four bytes: the numbers differ in one of the groups of six bits
  · refine ofNat_cons_lt_of_le (by omega) (by omega) fun _ => ?_
    exact ofNat_cons_lt (by omega) (by omega)
  · refine ofNat_cons_lt_of_le (by omega) (by omega) fun _ => ?_
    refine ofNat_cons_lt_of_le (by omega) (by omega) fun _ => ?_
    exact ofNat_cons_lt (by omega) (by omega)
  · refine ofNat_cons_lt_of_le (by omega) (by omega) fun _ => ?_
    refine ofNat_cons_lt_of_le (by omega) (by omega) fun _ => ?_
    refine ofNat_cons_lt_of_le (by omega) (by omega) fun _ => ?_
    exact ofNat_cons_lt (by omega) (by omega)

theorem flatMap_utf8EncodeChar_lt {a b : List Char} (h : a < b) :
    a.flatMap String.utf8EncodeChar < b.flatMap String.utf8EncodeChar := by
  induction h with
  | @nil c rest =>
    rw [List.flatMap_nil, List.flatMap_cons]
    rcases hbytes : String.utf8EncodeChar c ++ _ with _ | ⟨first, more⟩
    · exact absurd (List.append_eq_nil_iff.1 hbytes).1 (utf8EncodeChar_ne_nil c)
    · exact List.nil_lt_cons _ _
  | rel hlt =>
    rw [List.flatMap_cons, List.flatMap_cons]
    exact utf8EncodeChar_append_lt hlt _ _
  | cons _ ih =>
    rw [List.flatMap_cons, List.flatMap_cons]
    exact List.append_left_lt ih

theorem utf8_eq_flatMap (s : String) : utf8 s = s.toList.flatMap String.utf8EncodeChar := by
  unfold utf8
  rw [String.toUTF8, ← String.utf8Encode_toList, List.utf8Encode]
  simp

theorem utf8_lt_utf8 {s t : String} (h : s < t) : utf8 s < utf8 t := by
  rw [utf8_eq_flatMap, utf8_eq_flatMap]
  exact flatMap_utf8EncodeChar_lt (String.lt_iff.1 h)

/-- Texts are ordered as their bytes are. -/
theorem utf8_lt_utf8_iff {s t : String} : utf8 s < utf8 t ↔ s < t := by
  refine ⟨fun h => ?_, utf8_lt_utf8⟩
  rcases lt_trichotomy s t with hlt | heq | hgt
  · exact hlt
  · exact absurd (heq ▸ h) (List.lt_irrefl _)
  · exact absurd (utf8_lt_utf8 hgt) (List.lt_asymm h)

end EventModel.Wire
