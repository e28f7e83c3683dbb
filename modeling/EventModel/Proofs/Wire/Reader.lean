import EventModel.Proofs.Wire.Head

/-!
# Strings, numbers, lists and maps are read back

Each kind of item that a body is made of is read back from what was written for it. Sizes have to be
words of 64 bits, because a head holds no more.
-/

namespace EventModel.Wire

variable {α β σ τ : Type} {bound : Nat}

theorem reads_readUntagged (hbound : 0 < bound) {enc : Bytes} {head : Head}
    (hread : Reads readHead enc head) (htag : ∀ n, head ≠ .tag n) :
    Reads (readUntagged bound) enc head := by
  cases bound with
  | zero => exact absurd hbound (Nat.lt_irrefl 0)
  | succ bound =>
    refine hread.bind_nil ?_
    cases head with
    | tag n => exact absurd rfl (htag n)
    | _ => exact .pure _

/-- An item of a known length is read from its head and its contents. -/
theorem reads_readUntagged_bind (hbound : 0 < bound) {major : Major} (hmajor : major ≠ .other)
    (htag : ∀ n, major.head n ≠ .tag n) {n : Nat} (hn : n < 2 ^ 64) {enc : Bytes} {x : α}
    {f : Head → Reader α} (hf : Reads (f (major.head n)) enc x) :
    Reads (readUntagged bound >>= f) (encodeHead major n ++ enc) x := by
  have hhead : Reads (readUntagged bound) (encodeHead major n) (major.head n) := by
    refine reads_readUntagged hbound (reads_readHead hmajor hn) ?_
    intro k
    cases major with
    | tag => exact absurd rfl (htag n)
    | _ => simp [Major.head]
  exact hhead.bind hf

/-! ## Strings -/

theorem utf8_injective {a b : String} (h : utf8 a = utf8 b) : a = b := by
  have hread := ofUtf8?_utf8 a
  rw [h, ofUtf8?_utf8 b] at hread
  exact (Option.some.inj hread).symm

@[simp]
theorem utf8_inj {a b : String} : utf8 a = utf8 b ↔ a = b :=
  ⟨utf8_injective, congrArg utf8⟩

theorem reads_readTextBlock (s : String) : Reads (readTextBlock (utf8 s).length) (utf8 s) s := by
  intro rest
  simp [readTextBlock, ofUtf8?_utf8]

theorem reads_readString (hbound : 0 < bound) {s : String} (hs : (utf8 s).length < 2 ^ 64) :
    Reads (readString bound) (encodeText s) s :=
  reads_readUntagged_bind hbound (by simp) (by simp [Major.head]) hs (reads_readTextBlock s)

/-! ## Numbers -/

theorem reads_readInteger_nat (hbound : 0 < bound) {n : Nat} (hn : n < 2 ^ 64) :
    Reads (readInteger bound) (encodeNat n) n := by
  cases bound with
  | zero => exact absurd hbound (Nat.lt_irrefl 0)
  | succ bound =>
    have hhead : Reads readHead (encodeNat n) (.positive n) :=
      reads_readHead (by simp) hn
    exact hhead.bind_nil (.pure _)

theorem reads_readInteger_int (hbound : 0 < bound) {n : Int} (hlow : -(2 ^ 64) ≤ n)
    (hhigh : n < 2 ^ 64) : Reads (readInteger bound) (encodeInt n) n := by
  unfold encodeInt
  split
  · rename_i hpositive
    have hnat : Reads (readInteger bound) (encodeNat n.toNat) n.toNat :=
      reads_readInteger_nat hbound (by omega)
    rwa [Int.toNat_of_nonneg hpositive] at hnat
  · cases bound with
    | zero => exact absurd hbound (Nat.lt_irrefl 0)
    | succ bound =>
      have hhead : Reads readHead (encodeHead .negative (-1 - n).toNat)
          (.negative (-1 - n).toNat) := reads_readHead (by simp) (by omega)
      have hvalue : -1 - (((-1 - n).toNat : Nat) : Int) = n := by omega
      refine hhead.bind_nil ?_
      change Reads (Pure.pure (-1 - (((-1 - n).toNat : Nat) : Int))) [] n
      rw [hvalue]
      exact .pure n

theorem reads_readIntegerIn {enc : Bytes} {low high n : Int}
    (hread : Reads (readInteger bound) enc n) (hlow : low ≤ n) (hhigh : n ≤ high) :
    Reads (readIntegerIn bound low high) enc n := by
  refine hread.bind_nil ?_
  rw [if_pos ⟨hlow, hhigh⟩]
  exact .pure n

theorem reads_readSize (hbound : 0 < bound) {n : Nat} (hn : n < 2 ^ 64) :
    Reads (readSize bound) (encodeNat n) n := by
  have hread : Reads (readIntegerIn bound 0 (2 ^ 64 - 1)) (encodeNat n) n :=
    reads_readIntegerIn (reads_readInteger_nat hbound hn) (by omega) (by omega)
  exact hread.map Int.toNat

theorem reads_readUInt32 (hbound : 0 < bound) (x : UInt32) :
    Reads (readUInt32 bound) (encodeNat x.toNat) x := by
  have hlt := x.toNat_lt
  have hread : Reads (readIntegerIn bound 0 (2 ^ 32 - 1)) (encodeNat x.toNat) x.toNat :=
    reads_readIntegerIn (reads_readInteger_nat hbound (by omega)) (by omega) (by omega)
  have hvalue : UInt32.ofNat (x.toNat : Int).toNat = x := by simp
  refine hread.bind_nil ?_
  rw [hvalue]
  exact .pure x

theorem reads_readInt32 (hbound : 0 < bound) (x : Int32) :
    Reads (readInt32 bound) (encodeInt x.toInt) x := by
  have hlow := x.le_toInt
  have hhigh := x.toInt_lt
  have hread : Reads (readIntegerIn bound (-(2 ^ 31)) (2 ^ 31 - 1)) (encodeInt x.toInt) x.toInt :=
    reads_readIntegerIn (reads_readInteger_int hbound (by omega) (by omega)) (by omega)
      (by omega)
  have hvalue : Int32.ofInt x.toInt = x := by simp
  refine hread.bind_nil ?_
  rw [hvalue]
  exact .pure x

theorem reads_readDouble (hbound : 0 < bound) (x : Binary64) :
    Reads (readDouble bound) (encodeFloat x) x :=
  (reads_readUntagged hbound (reads_readHead_float x) (by simp)).bind_nil (.pure x)

theorem reads_readBool (hbound : 0 < bound) (b : Bool) :
    Reads (readBool bound) (encodeBool b) b := by
  refine (reads_readUntagged hbound (reads_readHead_bool b) (by simp)).bind_nil ?_
  cases b with
  | false => exact .pure false
  | true => exact .pure true

/-! ## Sequences -/

/-- The items are read one after the other, each as the value `f` makes of it. -/
theorem reads_readExactly {item : Reader β} {enc : α → Bytes} {f : α → β} {xs : List α}
    (hitem : ∀ x ∈ xs, Reads item (enc x) (f x)) :
    Reads (readExactly item xs.length) (xs.flatMap enc) (xs.map f) := by
  induction xs with
  | nil => exact .pure []
  | cons x xs ih =>
    have hfirst := hitem x List.mem_cons_self
    have hrest := ih fun y hy => hitem y (List.mem_cons_of_mem x hy)
    rw [List.flatMap_cons]
    exact hfirst.bind (hrest.bind_nil (.pure (f x :: xs.map f)))

theorem reads_readSequence_map (hbound : 0 < bound) {item : Reader β} {enc : α → Bytes}
    {f : α → β} {xs : List α} (ofByte : UInt8 → Option β) (hlength : xs.length < 2 ^ 64)
    (hitem : ∀ x ∈ xs, Reads item (enc x) (f x)) :
    Reads (readSequence bound item ofByte) (encodeList enc xs) (xs.map f) :=
  reads_readUntagged_bind hbound (by simp) (by simp [Major.head]) hlength
    (reads_readExactly hitem)

theorem reads_readSequence (hbound : 0 < bound) {item : Reader α} {enc : α → Bytes} {xs : List α}
    (ofByte : UInt8 → Option α) (hlength : xs.length < 2 ^ 64)
    (hitem : ∀ x ∈ xs, Reads item (enc x) x) :
    Reads (readSequence bound item ofByte) (encodeList enc xs) xs := by
  have hread := reads_readSequence_map hbound ofByte hlength hitem
  rwa [List.map_id'] at hread

theorem reads_readPair (hbound : 0 < bound) {first : Reader α} {second : Reader β}
    {encFirst : σ → Bytes} {encSecond : τ → Bytes} {pair : σ × τ} {x : α} {y : β}
    (hfirst : Reads first (encFirst pair.1) x) (hsecond : Reads second (encSecond pair.2) y) :
    Reads (readPair bound first second) (encodePair encFirst encSecond pair) (x, y) := by
  refine reads_readUntagged_bind hbound (by simp) (by simp [Major.head]) (by decide) ?_
  have hx : Reads (readNext first (some 2)) (encFirst pair.1) (some (x, some 1)) :=
    hfirst.bind_nil (.pure _)
  have hy : Reads (readNext second (some 1)) (encSecond pair.2) (some (y, some 0)) :=
    hsecond.bind_nil (.pure _)
  exact hx.bind (hy.bind_nil (.pure (x, y)))

theorem reads_readColumn (hbound : 0 < bound) {data : Bytes} (hdata : data.length < 2 ^ 64) :
    Reads (readColumn bound) (encodeBytes data) data :=
  reads_readUntagged_bind hbound (by simp) (by simp [Major.head]) hdata (reads_takeBytes data)

/-! ## Maps -/

/-- The written values lead the state from `first` to `last`, one field after the other. -/
inductive ReadsFields (entry : Bytes → σ → Reader σ) : List (String × Bytes) → σ → σ → Prop
  | nil (state : σ) : ReadsFields entry [] state state
  | cons {key : String} {value : Bytes} {rest : List (String × Bytes)} {first next last : σ}
      (hkey : (utf8 key).length ≤ blockSize) (hvalue : Reads (entry (utf8 key) first) value next)
      (hrest : ReadsFields entry rest next last) :
      ReadsFields entry ((key, value) :: rest) first last

theorem reads_readKey (hbound : 0 < bound) {key : String} (hkey : (utf8 key).length ≤ blockSize) :
    Reads (readKey bound) (encodeText key) (utf8 key) := by
  have hword : (utf8 key).length < 2 ^ 64 := Nat.lt_of_le_of_lt hkey (by decide)
  refine reads_readUntagged_bind hbound (by simp) (by simp [Major.head]) hword ?_
  change Reads (if (utf8 key).length ≤ blockSize then _ else _) _ _
  rw [if_pos hkey]
  refine (reads_takeBytes (utf8 key)).bind_nil ?_
  rw [ofUtf8?_utf8, Option.isSome_some, if_pos rfl]
  exact .pure _

theorem reads_readEntries_exactly (hbound : 0 < bound) {entry : Bytes → σ → Reader σ}
    {fields : List (String × Bytes)} {first last : σ}
    (hfields : ReadsFields entry fields first last) :
    Reads (readEntries.exactly entry (readKey bound) fields.length first)
      (fields.flatMap fun (key, value) => encodeText key ++ value) last := by
  induction hfields with
  | nil state => exact .pure state
  | cons hkey hvalue _ ih =>
    rw [List.flatMap_cons, List.append_assoc]
    exact (reads_readKey hbound hkey).bind (hvalue.bind ih)

theorem reads_readMap (hbound : 0 < bound) {entry : Bytes → σ → Reader σ}
    {fields : List (String × Bytes)} {first last : σ} (hlength : fields.length < 2 ^ 64)
    (hfields : ReadsFields entry fields first last) :
    Reads (readMap bound entry first) (encodeFields fields) last :=
  reads_readUntagged_bind hbound (by simp) (by simp [Major.head]) hlength
    (reads_readEntries_exactly hbound hfields)

end EventModel.Wire
