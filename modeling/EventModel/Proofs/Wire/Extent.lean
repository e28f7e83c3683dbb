import Mathlib.Algebra.Ring.Nat
import EventModel.Proofs.Wire.Body

/-!
# The extent of what is read

A reader never goes back: what it leaves is a part of its input, and it takes at least as many bytes
as its result is long. From an input whose length is a word of 64 bits, every text, byte string and
list that is read has a length that is a word again. Numbers and truth values take at least a byte,
so that a list is never longer than its bytes, whatever its head announces.
-/

namespace EventModel.Wire

variable {α β σ : Type} {bound : Nat}

/-- For a result `x`, which satisfies `P`, the reader takes at least `size x` bytes of an input
whose length is a word. As many as `credit` of them may have been taken before. -/
def Takes (credit : Nat) (r : Reader α) (size : α → Nat) (P : α → Prop) : Prop :=
  ∀ bytes x rest, bytes.length < 2 ^ 64 → r bytes = .ok (x, rest) →
    rest.length ≤ bytes.length ∧ rest.length + size x ≤ bytes.length + credit ∧ P x

theorem takes_fail {credit : Nat} {why : Failure} {size : α → Nat} {P : α → Prop} :
    Takes credit (fail why) size P := by
  intro bytes x rest _ hread
  cases hread

theorem Takes.pure {credit : Nat} {x : α} {size : α → Nat} {P : α → Prop} (hsize : size x ≤ credit)
    (hx : P x) : Takes credit (Pure.pure x : Reader α) size P := by
  intro bytes y rest _ hread
  cases hread
  exact ⟨Nat.le_refl _, Nat.add_le_add_left hsize _, hx⟩

/-- What the first reader takes is to the credit of the second. -/
theorem Takes.bind {credit : Nat} {r : Reader α} {f : α → Reader β} {size : α → Nat}
    {size' : β → Nat} {P : α → Prop} {Q : β → Prop} (hr : Takes 0 r size P)
    (hf : ∀ x, P x → Takes (credit + size x) (f x) size' Q) : Takes credit (r >>= f) size' Q := by
  intro bytes y rest hword hread
  simp only [reader_bind_apply] at hread
  split at hread
  case h_1 x mid hfirst =>
    rcases hr bytes x mid hword hfirst with ⟨hle, htaken, hx⟩
    rcases hf x hx mid y rest (by omega) hread with ⟨hle', htaken', hy⟩
    exact ⟨Nat.le_trans hle' hle, by omega, hy⟩
  case h_2 => cases hread

/-- A smaller size and a weaker property. The size of a result is a word. -/
theorem Takes.mono {credit : Nat} {r : Reader α} {size size' : α → Nat} {P Q : α → Prop}
    (hr : Takes 0 r size P) (hle : ∀ x, P x → size' x ≤ credit + size x)
    (hQ : ∀ x, size x < 2 ^ 64 → P x → Q x) : Takes credit r size' Q := by
  intro bytes x rest hword hread
  rcases hr bytes x rest hword hread with ⟨hback, htaken, hx⟩
  have hsmaller := hle x hx
  exact ⟨hback, by omega, hQ x (by omega) hx⟩

theorem Takes.map {credit : Nat} {r : Reader α} {f : α → β} {size : α → Nat} {size' : β → Nat}
    {P : α → Prop} {Q : β → Prop} (hr : Takes 0 r size P)
    (hle : ∀ x, P x → size' (f x) ≤ credit + size x) (hQ : ∀ x, P x → Q (f x)) :
    Takes credit (f <$> r) size' Q :=
  hr.bind fun x hx => .pure (hle x hx) (hQ x hx)

/-- The reader never goes back, whatever its result is. -/
theorem Takes.any {credit : Nat} {r : Reader α} {size : α → Nat} {P : α → Prop}
    (hr : Takes 0 r size P) : Takes credit r (fun _ => 0) fun _ => True :=
  hr.mono (fun _ _ => Nat.zero_le _) fun _ _ _ => trivial

/-! ## Heads -/

theorem takes_takeBytes (n : Nat) : Takes 0 (takeBytes n) List.length fun _ => True := by
  intro bytes x rest _ hread
  unfold takeBytes at hread
  split at hread
  case isTrue =>
    cases hread
    have hlength : (bytes.drop n).length = bytes.length - n := List.length_drop
    have htaken : (bytes.take n).length ≤ bytes.length := List.length_take_le' n bytes
    refine ⟨?_, ?_, trivial⟩ <;> omega
  case isFalse => cases hread

theorem takes_takeByte : Takes 0 takeByte (fun _ => 1) fun _ => True := by
  intro bytes x rest _ hread
  cases bytes with
  | nil => cases hread
  | cons b tail =>
    cases hread
    exact ⟨Nat.le_succ _, Nat.le_refl _, trivial⟩

theorem takes_readArgument (low : Nat) :
    Takes 0 (readArgument low) (fun _ => 0) fun _ => True := by
  have hlong : ∀ width, Takes 0 (readLong width) (fun _ => 0) fun _ => True := fun width =>
    (takes_takeBytes width).bind fun _ _ => .pure (Nat.zero_le _) trivial
  unfold readArgument
  repeat' split
  all_goals first | exact hlong _ | exact .pure (Nat.le_refl 0) trivial | exact takes_fail

theorem takes_readHead : Takes 0 readHead (fun _ => 1) fun _ => True := by
  refine takes_takeByte.bind ?_
  intro first _
  refine (takes_readArgument _).bind ?_
  intro argument _
  split
  · exact .pure (Nat.le_refl 1) trivial
  · exact takes_fail

theorem takes_readUntagged : Takes 0 (readUntagged bound) (fun _ => 1) fun _ => True := by
  induction bound with
  | zero => exact takes_fail
  | succ bound ih =>
    refine takes_readHead.bind ?_
    intro head _
    split
    · exact ih.mono (fun _ _ => Nat.le_add_left _ _) fun _ _ _ => trivial
    · exact .pure (Nat.le_refl 1) trivial

/-! ## Strings -/

/-- The bytes of a text that is read are the ones it was read from. -/
theorem utf8_of_ofUtf8? {bytes : Bytes} {s : String} (h : ofUtf8? bytes = some s) :
    utf8 s = bytes := by
  unfold ofUtf8? String.fromUTF8? at h
  split at h
  case isTrue =>
    cases h
    simp [utf8, String.fromUTF8]
  case isFalse => cases h

theorem takes_readTextBlock (n : Nat) :
    Takes 0 (readTextBlock n) (fun s => (utf8 s).length) fun _ => True := by
  intro bytes s rest _ hread
  unfold readTextBlock at hread
  dsimp only at hread
  split at hread
  case isTrue =>
    split at hread
    case h_1 found hfound =>
      cases hread
      have hbytes := utf8_of_ofUtf8? hfound
      have hlength : (bytes.drop n).length = bytes.length - n := List.length_drop
      have htaken : (bytes.take n).length ≤ bytes.length := List.length_take_le' n bytes
      simp only [hbytes]
      refine ⟨?_, ?_, trivial⟩ <;> omega
    case h_2 => cases hread
  case isFalse => split at hread <;> cases hread

/-- The parts of a string together are as long as what was read for them. -/
theorem takes_readParts {lengthOf : Head → Option (Option Nat)} {readPart : Nat → Reader α}
    {size : α → Nat} (hpart : ∀ n, Takes 0 (readPart n) size fun _ => True) (bound depth : Nat) :
    Takes 0 (readParts lengthOf readPart bound depth) (fun parts => (parts.map size).sum)
      fun _ => True := by
  -- the bound is on the number of heads, so each part uses up one of it
  induction bound generalizing depth with
  | zero => exact takes_fail
  | succ bound ih =>
    unfold readParts
    refine takes_readHead.bind ?_
    intro head _
    split
    · split
      · exact .pure (Nat.zero_le _) trivial
      · exact (ih _).mono (fun _ _ => Nat.le_add_left _ _) fun _ _ _ => trivial
    · split
      · exact takes_fail
      · exact (ih _).mono (fun _ _ => Nat.le_add_left _ _) fun _ _ _ => trivial
      · refine (hpart _).bind ?_
        intro part _
        refine (ih depth).bind ?_
        intro parts _
        refine .pure ?_ trivial
        simp only [List.map_cons, List.sum_cons]
        omega

theorem takes_readBytes (length : Option Nat) :
    Takes 0 (readBytes bound length) List.length fun _ => True := by
  cases length with
  | some n => exact takes_takeBytes n
  | none =>
    refine (takes_readParts takes_takeBytes bound 1).bind ?_
    intro parts _
    refine .pure ?_ trivial
    simp

theorem utf8_append (a b : String) : utf8 (a ++ b) = utf8 a ++ utf8 b := by
  simp [utf8]

theorem length_utf8_join (parts : List String) :
    (utf8 (String.join parts)).length = (parts.map fun s => (utf8 s).length).sum := by
  induction parts with
  | nil => rfl
  | cons s parts ih => simp [String.join_cons, utf8_append, ih]

theorem takes_readText (length : Option Nat) :
    Takes 0 (readText bound length) (fun s => (utf8 s).length) fun _ => True := by
  cases length with
  | some n => exact takes_readTextBlock n
  | none =>
    refine (takes_readParts takes_readTextBlock bound 1).bind ?_
    intro parts _
    refine .pure ?_ trivial
    simp [length_utf8_join]

theorem takes_readString :
    Takes 0 (readString bound) (fun s => (utf8 s).length + 1) fun _ => True := by
  refine takes_readUntagged.bind ?_
  intro head _
  split
  · exact (takes_readText _).mono (fun _ _ => by omega) fun _ _ _ => trivial
  · exact takes_fail

/-! ## Numbers -/

theorem takes_readLargePart (soFar : Bytes) (n : Nat) :
    Takes 0 (readLargePart soFar n) (fun _ => 0) fun _ => True := by
  intro bytes x rest _ hread
  unfold readLargePart at hread
  dsimp only at hread
  generalize significant _ = number at hread
  split at hread
  case isTrue => cases hread
  case isFalse =>
    split at hread
    case isTrue =>
      cases hread
      have hback : (bytes.drop n).length ≤ bytes.length := by simp
      exact ⟨hback, hback, trivial⟩
    case isFalse => cases hread

theorem takes_readLargeParts (bound depth : Nat) (soFar : Bytes) :
    Takes 0 (readLargeParts bound depth soFar) (fun _ => 0) fun _ => True := by
  induction bound generalizing depth soFar with
  | zero => exact takes_fail
  | succ bound ih =>
    unfold readLargeParts
    refine takes_readHead.bind ?_
    intro head _
    split
    · split
      · exact .pure (Nat.zero_le _) trivial
      · exact (ih _ _).any
    · exact (ih _ _).any
    · exact (takes_readLargePart _ _).any.bind fun part _ => (ih _ _).any
    · exact takes_fail

theorem takes_readLarge : Takes 0 (readLarge bound) (fun _ => 0) fun _ => True := by
  refine takes_readHead.any.bind ?_
  intro head _
  split
  · exact (takes_readLargePart _ _).bind fun _ _ => .pure (Nat.zero_le _) trivial
  · exact (takes_readLargeParts _ _ _).bind fun _ _ => .pure (Nat.zero_le _) trivial
  · exact takes_fail

theorem takes_readInteger : Takes 0 (readInteger bound) (fun _ => 1) fun _ => True := by
  induction bound with
  | zero => exact takes_fail
  | succ bound ih =>
    refine takes_readHead.bind ?_
    intro head _
    split
    · exact .pure (Nat.le_refl 1) trivial
    · exact .pure (Nat.le_refl 1) trivial
    · exact takes_readLarge.bind fun _ _ => .pure (Nat.le_refl 1) trivial
    · exact takes_readLarge.bind fun _ _ => .pure (Nat.le_refl 1) trivial
    · exact ih.mono (fun _ _ => Nat.le_add_left _ _) fun _ _ _ => trivial
    · exact takes_fail

theorem takes_readIntegerIn {low high : Int} :
    Takes 0 (readIntegerIn bound low high) (fun _ => 1) fun n => low ≤ n ∧ n ≤ high := by
  refine takes_readInteger.bind ?_
  intro n _
  split
  case isTrue hrange => exact .pure (Nat.le_refl 1) hrange
  case isFalse => exact takes_fail

theorem takes_readUInt8 : Takes 0 (readUInt8 bound) (fun _ => 1) fun _ => True :=
  takes_readIntegerIn.bind fun _ _ => .pure (Nat.le_refl 1) trivial

theorem takes_readUInt32 : Takes 0 (readUInt32 bound) (fun _ => 1) fun _ => True :=
  takes_readIntegerIn.bind fun _ _ => .pure (Nat.le_refl 1) trivial

theorem takes_readInt32 : Takes 0 (readInt32 bound) (fun _ => 1) fun _ => True :=
  takes_readIntegerIn.bind fun _ _ => .pure (Nat.le_refl 1) trivial

/-- A size is checked to be a word. -/
theorem takes_readSize : Takes 0 (readSize bound) (fun _ => 1) fun n => n < 2 ^ 64 := by
  refine takes_readIntegerIn.bind ?_
  intro n hrange
  exact .pure (Nat.le_refl 1) (by omega)

theorem takes_readDouble : Takes 0 (readDouble bound) (fun _ => 1) fun _ => True := by
  refine takes_readUntagged.bind ?_
  intro head _
  split
  · exact .pure (Nat.le_refl 1) trivial
  · exact takes_fail

theorem takes_readBool : Takes 0 (readBool bound) (fun _ => 1) fun _ => True := by
  refine takes_readUntagged.bind ?_
  intro head _
  split
  · exact .pure (Nat.le_refl 1) trivial
  · exact .pure (Nat.le_refl 1) trivial
  · exact takes_fail

/-! ## Sequences -/

/-- The property of an item that may be missing. -/
def Holds (P : α → Prop) (found : Option (α × Option Nat)) : Prop :=
  ∀ next ∈ found, P next.1

theorem takes_readNext {item : Reader α} {P : α → Prop} (hitem : Takes 0 item (fun _ => 1) P)
    (length : Option Nat) :
    Takes 0 (readNext item length) (fun found => if found.isSome then 1 else 0) (Holds P) := by
  have hnone : Holds P none := fun next hnext => by cases hnext
  have hsome : ∀ x length, P x → Holds P (some (x, length)) := by
    intro x length hx next hnext
    cases hnext
    exact hx
  match length with
  | some 0 => exact .pure (Nat.le_refl 0) hnone
  | some (n + 1) => exact hitem.bind fun x hx => .pure (Nat.le_refl 1) (hsome x _ hx)
  | none =>
    intro bytes found rest hword hread
    rcases hhead : readHead bytes with why | ⟨head, tail⟩
    · simp [readNext, hhead] at hread
    · rcases takes_readHead bytes head tail hword hhead with ⟨hback, -, -⟩
      simp only [readNext, hhead] at hread
      split at hread
      case h_1 heq => cases heq
      case h_2 heq =>
        -- the stop is taken as well
        cases heq
        cases hread
        exact ⟨hback, hback, hnone⟩
      case h_3 =>
        split at hread
        case h_1 => cases hread
        case h_2 x tail' hx =>
          cases hread
          rcases hitem bytes x rest hword hx with ⟨hle, htaken, hP⟩
          exact ⟨hle, htaken, hsome x none hP⟩

/-- Every item satisfies `P`. -/
def Each (P : α → Prop) (items : List α) : Prop :=
  ∀ x ∈ items, P x

theorem Each.nil {P : α → Prop} : Each P [] := by
  intro x hx
  cases hx

theorem Each.cons {P : α → Prop} {x : α} {items : List α} (hx : P x) (hitems : Each P items) :
    Each P (x :: items) := by
  intro y hy
  rcases List.mem_cons.1 hy with heq | hrest
  · exact heq ▸ hx
  · exact hitems y hrest

theorem takes_readExactly {item : Reader α} {P : α → Prop} (hitem : Takes 0 item (fun _ => 1) P)
    (n : Nat) : Takes 0 (readExactly item n) List.length (Each P) := by
  induction n with
  | zero => exact .pure (Nat.le_refl 0) Each.nil
  | succ n ih =>
    refine hitem.bind ?_
    intro x hx
    refine ih.bind ?_
    intro items hitems
    refine .pure ?_ (hitems.cons hx)
    simp only [List.length_cons]
    omega

theorem takes_readToStop {item : Reader α} {P : α → Prop} (hitem : Takes 0 item (fun _ => 1) P)
    (bound : Nat) : Takes 0 (readToStop item bound) List.length (Each P) := by
  induction bound with
  | zero => exact takes_fail
  | succ bound ih =>
    refine (takes_readNext hitem none).bind ?_
    intro found hfound
    cases found with
    | none => exact .pure (Nat.zero_le _) Each.nil
    | some next =>
      refine ih.bind ?_
      intro items hitems
      refine .pure ?_ (hitems.cons (hfound next rfl))
      simp only [List.length_cons, Option.isSome_some, if_true]
      omega

theorem takes_readElements {item : Reader α} {P : α → Prop} (hitem : Takes 0 item (fun _ => 1) P)
    (length : Option Nat) : Takes 0 (readElements bound item length) List.length (Each P) := by
  cases length with
  | some n => exact takes_readExactly hitem n
  | none => exact takes_readToStop hitem bound

/-- The traversal of a list in which each item has an image. -/
theorem each_of_mapM {f : α → Option β} {P : β → Prop} (hf : ∀ x y, f x = some y → P y)
    {xs : List α} {ys : List β} (h : xs.mapM f = some ys) :
    ys.length = xs.length ∧ Each P ys := by
  induction xs generalizing ys with
  | nil =>
    cases h
    exact ⟨rfl, Each.nil⟩
  | cons x xs ih =>
    simp only [List.mapM_cons, Option.bind_eq_bind, Option.bind_eq_some_iff, Option.pure_def,
      Option.some.injEq] at h
    rcases h with ⟨y, hy, rest, hrest, rfl⟩
    rcases ih hrest with ⟨hlength, hall⟩
    exact ⟨congrArg Nat.succ hlength, hall.cons (hf x y hy)⟩

theorem takes_readSequence {item : Reader α} {ofByte : UInt8 → Option α} {P : α → Prop}
    (hitem : Takes 0 item (fun _ => 1) P) (hbyte : ∀ b x, ofByte b = some x → P x) :
    Takes 0 (readSequence bound item ofByte) (fun items => items.length + 1) (Each P) := by
  refine takes_readUntagged.bind ?_
  intro head _
  split
  · exact (takes_readElements hitem _).mono (fun _ _ => by omega) fun _ _ h => h
  · refine (takes_readBytes _).bind ?_
    intro bytes _
    split
    · rename_i items hitems
      rcases each_of_mapM hbyte hitems with ⟨hlength, hall⟩
      exact .pure (by omega) hall
    · exact takes_fail
  · exact takes_fail

/-- A list that was read has a length that is a word. -/
theorem takes_readList {item : Reader α} {P : α → Prop} (hitem : Takes 0 item (fun _ => 1) P) :
    Takes 0 (readList bound item) (fun _ => 1) (ListFits P) := by
  have hread : Takes 0 (readList bound item) (fun items => items.length + 1) (Each P) :=
    takes_readSequence hitem fun b x hx => by cases hx
  exact hread.mono (fun _ _ => by omega) fun items hlength hall => ⟨by omega, hall⟩

theorem takes_readPair {first : Reader α} {second : Reader β} {P : α → Prop} {Q : β → Prop}
    (hfirst : Takes 0 first (fun _ => 1) P) (hsecond : Takes 0 second (fun _ => 1) Q) :
    Takes 0 (readPair bound first second) (fun _ => 1) fun pair => P pair.1 ∧ Q pair.2 := by
  refine takes_readUntagged.bind ?_
  intro head _
  split
  · refine (takes_readNext hfirst _).bind ?_
    intro found hx
    cases found with
    | none => exact takes_fail
    | some x =>
      refine (takes_readNext hsecond x.2).bind ?_
      intro found hy
      cases found with
      | none => exact takes_fail
      | some y => exact .pure (by omega) ⟨hx x rfl, hy y rfl⟩
  · exact (takes_readBytes _).bind fun _ _ => takes_fail
  · exact takes_fail

theorem takes_readColumn :
    Takes 0 (readColumn bound) (fun data => data.length + 1) fun _ => True := by
  refine takes_readUntagged.bind ?_
  intro head _
  split
  · exact (takes_readBytes _).mono (fun _ _ => by omega) fun _ _ _ => trivial
  · exact (takes_readElements takes_readUInt8 _).mono (fun _ _ => by omega) fun _ _ _ => trivial
  · exact takes_fail

/-! ## Maps -/

theorem takes_readKey : Takes 0 (readKey bound) (fun _ => 1) fun _ => True := by
  refine takes_readUntagged.bind ?_
  intro head _
  split
  · split
    · refine (takes_takeBytes _).bind ?_
      intro key _
      split
      · exact .pure (by omega) trivial
      · exact takes_fail
    · exact takes_fail
  · split
    · exact (takes_takeBytes _).mono (fun _ _ => by omega) fun _ _ _ => trivial
    · exact takes_fail
  · exact takes_fail

/-- What every entry preserves holds of the last state. -/
theorem takes_readEntries {entry : Bytes → σ → Reader σ} {key : Reader Bytes} {I : σ → Prop}
    (hkey : Takes 0 key (fun _ => 1) fun _ => True)
    (hentry : ∀ k state, I state → Takes 0 (entry k state) (fun _ => 0) I)
    (length : Option Nat) {first : σ} (hfirst : I first) :
    Takes 0 (readEntries bound entry key length first) (fun _ => 0) I := by
  cases length with
  | some n =>
    change Takes 0 (readEntries.exactly entry key n first) (fun _ => 0) I
    -- the invariant holds of the state between two entries
    induction n generalizing first with
    | zero => exact .pure (Nat.le_refl 0) hfirst
    | succ n ih =>
      refine hkey.any.bind ?_
      intro k _
      refine (hentry k first hfirst).bind ?_
      intro next hnext
      exact ih hnext
  | none =>
    change Takes 0 (readEntries.toStop entry key bound first) (fun _ => 0) I
    induction bound generalizing first with
    | zero => exact takes_fail
    | succ bound ih =>
      refine (takes_readNext hkey none).any.bind ?_
      intro found _
      split
      · exact .pure (Nat.le_refl 0) hfirst
      · refine (hentry _ first hfirst).bind ?_
        intro next hnext
        exact ih hnext

theorem takes_readMap {entry : Bytes → σ → Reader σ} {I : σ → Prop}
    (hentry : ∀ k state, I state → Takes 0 (entry k state) (fun _ => 0) I) {first : σ}
    (hfirst : I first) : Takes 0 (readMap bound entry first) (fun _ => 1) I := by
  refine takes_readUntagged.bind ?_
  intro head _
  split
  · exact (takes_readEntries takes_readKey hentry _ hfirst).mono (fun _ _ => by omega)
      fun _ _ h => h
  · exact takes_fail

/-! ## Items that are passed over -/

theorem takes_peekHead : Takes 0 peekHead (fun _ => 0) fun _ => True := by
  intro bytes head rest _ hread
  unfold peekHead at hread
  split at hread
  · cases hread
  · cases hread
    exact ⟨Nat.le_refl _, Nat.le_refl _, trivial⟩

theorem takes_skipLarge (tag : Nat) : Takes 0 (skipLarge bound tag) (fun _ => 0) fun _ => True := by
  refine takes_readLarge.bind ?_
  intro n _
  split
  · exact takes_fail
  · exact .pure (Nat.le_refl 0) trivial

/-- An item is at least its head, whatever it holds. -/
theorem takes_skipItem {inner : Option (Reader Unit)}
    (hinner : ∀ item ∈ inner, Takes 0 item (fun _ => 1) fun _ => True) :
    Takes 0 (skipItem bound inner) (fun _ => 1) fun _ => True := by
  have hone : 1 ≤ 0 + 1 := Nat.le_refl 1
  refine takes_readHead.bind ?_
  intro head _
  cases head with
  | positive | negative | float => exact .pure hone trivial
  | bytes length => exact (takes_readBytes length).any.bind fun _ _ => .pure hone trivial
  | text length => exact (takes_readText length).any.bind fun _ _ => .pure hone trivial
  | array length =>
    cases inner with
    | none => exact takes_fail
    | some item =>
      exact (takes_readElements (hinner item rfl) length).any.bind fun _ _ => .pure hone trivial
  | map length =>
    cases inner with
    | none => exact takes_fail
    | some item =>
      have hitem := hinner item rfl
      -- keys are skipped as values are
      have hkey : Takes 0 (item *> Pure.pure [] : Reader Bytes) (fun _ => 1) fun _ => True :=
        hitem.bind fun _ _ => .pure hone trivial
      have hall : Takes 0 (readEntries bound (fun _ _ => item) (item *> Pure.pure []) length ())
          (fun _ => 0) fun _ => True :=
        takes_readEntries hkey (fun _ _ _ => hitem.any) length trivial
      exact hall.mono (fun _ _ => hone) fun _ _ _ => trivial
  | tag n =>
    refine takes_peekHead.bind ?_
    intro next _
    split
    · exact (takes_skipLarge n).mono (fun _ _ => hone) fun _ _ _ => trivial
    · cases inner with
      | none => exact takes_fail
      | some item => exact (hinner item rfl).mono (fun _ _ => by omega) fun _ _ _ => trivial
  | simple n =>
    change Takes _ (if 20 ≤ n ∧ n ≤ 23 then Pure.pure () else fail .unexpected) _ _
    split
    · exact .pure hone trivial
    · exact takes_fail
  | stop => exact takes_fail

theorem takes_skip (depth : Nat) : Takes 0 (skip bound depth) (fun _ => 1) fun _ => True := by
  induction depth with
  | zero => exact takes_skipItem fun item hitem => by cases hitem
  | succ depth ih =>
    refine takes_skipItem ?_
    intro item hitem
    cases hitem
    exact ih

end EventModel.Wire
