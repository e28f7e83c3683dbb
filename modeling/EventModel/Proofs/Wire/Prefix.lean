import EventModel.Proofs.Wire.Body

/-!
# What a reader does not take does not matter

A reader that succeeds looks at nothing behind the bytes that it takes: with more bytes at the end
of its input it has the same result and leaves the additional bytes as well (`Extends`). So the bytes
of an item that is read back are not the front of any longer item, and no proper front of them is
read at all (`FrameBody.read_of_front`).
-/

namespace EventModel.Wire

variable {α β σ : Type} {bound bound' : Nat}

/-- What `r` reads from an input, `r'` reads from every longer one. The two readers differ in the
bound on the number of heads, which is that of the input. -/
def Extends (r r' : Reader α) : Prop :=
  ∀ bytes x rest more, r bytes = .ok (x, rest) → r' (bytes ++ more) = .ok (x, rest ++ more)

theorem extends_fail {why : Failure} {r : Reader α} : Extends (fail why) r := by
  intro bytes x rest more hread
  cases hread

theorem Extends.pure (x : α) : Extends (pure x) (pure x) := by
  intro bytes y rest more hread
  cases hread
  rfl

theorem Extends.bind {r r' : Reader α} {f f' : α → Reader β} (hr : Extends r r')
    (hf : ∀ x, Extends (f x) (f' x)) : Extends (r >>= f) (r' >>= f') := by
  intro bytes y rest more hread
  rw [reader_bind_apply] at hread ⊢
  split at hread
  case h_1 x mid hfirst =>
    rw [hr bytes x mid more hfirst]
    exact hf x mid y rest more hread
  case h_2 => cases hread

theorem Extends.map {r r' : Reader α} (f : α → β) (hr : Extends r r') :
    Extends (f <$> r) (f <$> r') :=
  hr.bind fun x => .pure (f x)

/-- A choice that both readers make in the same way. -/
theorem Extends.ite {p : Prop} [Decidable p] {r₁ r₁' r₂ r₂' : Reader α} (h₁ : Extends r₁ r₁')
    (h₂ : Extends r₂ r₂') : Extends (if p then r₁ else r₂) (if p then r₁' else r₂') := by
  split
  · exact h₁
  · exact h₂

/-! ## Heads -/

theorem extends_takeBytes (n : Nat) : Extends (takeBytes n) (takeBytes n) := by
  intro bytes x rest more hread
  unfold takeBytes at hread ⊢
  split at hread
  case isTrue hlength =>
    cases hread
    have hle : n ≤ bytes.length := by
      rw [List.length_take] at hlength
      omega
    rw [List.take_append_of_le_length hle, List.drop_append_of_le_length hle, if_pos hlength]
  case isFalse => cases hread

theorem extends_takeByte : Extends takeByte takeByte := by
  intro bytes x rest more hread
  cases bytes with
  | nil => cases hread
  | cons b tail =>
    cases hread
    rfl

theorem extends_readArgument (low : Nat) : Extends (readArgument low) (readArgument low) := by
  have hlong : ∀ width, Extends (readLong width) (readLong width) := fun width =>
    (extends_takeBytes width).bind fun _ => .pure _
  unfold readArgument
  refine .ite (.pure _) (.ite (hlong 1) (.ite (hlong 2) (.ite (hlong 4) (.ite (hlong 8) ?_))))
  exact .ite (.pure _) extends_fail

theorem extends_readHead : Extends readHead readHead := by
  refine extends_takeByte.bind fun first => (extends_readArgument _).bind fun argument => ?_
  rcases headOf (first.toNat / 32) argument with _ | head
  · exact extends_fail
  · exact .pure head

theorem extends_readUntagged (hbound : bound ≤ bound') :
    Extends (readUntagged bound) (readUntagged bound') := by
  induction bound generalizing bound' with
  | zero => exact extends_fail
  | succ bound ih =>
    obtain ⟨n, rfl⟩ := Nat.exists_eq_add_of_lt hbound
    refine extends_readHead.bind fun head => ?_
    cases head with
    | tag => exact ih (Nat.le_add_right _ _)
    | _ => exact .pure _

/-! ## Strings -/

theorem extends_readTextBlock (n : Nat) : Extends (readTextBlock n) (readTextBlock n) := by
  intro bytes x rest more hread
  unfold readTextBlock at hread ⊢
  dsimp only at hread ⊢
  split at hread
  case isTrue hlength =>
    have hle : n ≤ bytes.length := by
      rw [List.length_take] at hlength
      omega
    rw [List.take_append_of_le_length hle, List.drop_append_of_le_length hle, if_pos hlength]
    split at hread
    case h_1 s hs =>
      cases hread
      rfl
    case h_2 => cases hread
  case isFalse => split at hread <;> cases hread

theorem extends_readParts {lengthOf : Head → Option (Option Nat)} {readPart : Nat → Reader α}
    (hpart : ∀ n, Extends (readPart n) (readPart n)) (hbound : bound ≤ bound') (depth : Nat) :
    Extends (readParts lengthOf readPart bound depth)
      (readParts lengthOf readPart bound' depth) := by
  induction bound generalizing bound' depth with
  | zero => exact extends_fail
  | succ bound ih =>
    obtain ⟨n, rfl⟩ := Nat.exists_eq_add_of_lt hbound
    have hle : bound ≤ bound + n := Nat.le_add_right _ _
    refine extends_readHead.bind fun head => ?_
    -- a stop ends one of the strings, any other head is that of a part
    cases head with
    | stop => exact .ite (.pure []) (ih hle _)
    | _ =>
      dsimp only
      generalize lengthOf _ = length
      rcases length with _ | _ | k
      · exact extends_fail
      · exact ih hle _
      · exact (hpart k).bind fun part => (ih hle depth).bind fun parts => .pure _

theorem extends_readBytes (hbound : bound ≤ bound') (length : Option Nat) :
    Extends (readBytes bound length) (readBytes bound' length) := by
  cases length with
  | some n => exact extends_takeBytes n
  | none => exact (extends_readParts extends_takeBytes hbound 1).bind fun _ => .pure _

theorem extends_readText (hbound : bound ≤ bound') (length : Option Nat) :
    Extends (readText bound length) (readText bound' length) := by
  cases length with
  | some n => exact extends_readTextBlock n
  | none => exact (extends_readParts extends_readTextBlock hbound 1).bind fun _ => .pure _

theorem extends_readString (hbound : bound ≤ bound') :
    Extends (readString bound) (readString bound') := by
  refine (extends_readUntagged hbound).bind fun head => ?_
  cases head with
  | text length => exact extends_readText hbound length
  | _ => exact extends_fail

/-! ## Numbers -/

theorem extends_readLargePart (soFar : Bytes) (n : Nat) :
    Extends (readLargePart soFar n) (readLargePart soFar n) := by
  intro bytes x rest more hread
  unfold readLargePart at hread ⊢
  dsimp only at hread ⊢
  by_cases hlength : (bytes.take n).length = n
  · have hle : n ≤ bytes.length := by
      rw [List.length_take] at hlength
      omega
    rw [List.take_append_of_le_length hle, List.drop_append_of_le_length hle]
    rw [if_pos hlength] at hread ⊢
    split at hread
    case isTrue => cases hread
    case isFalse hsmall =>
      cases hread
      rw [if_neg hsmall, if_pos hlength]
  · simp only [if_neg hlength] at hread
    split at hread <;> cases hread

theorem extends_readLargeParts (hbound : bound ≤ bound') (depth : Nat) (soFar : Bytes) :
    Extends (readLargeParts bound depth soFar) (readLargeParts bound' depth soFar) := by
  induction bound generalizing bound' depth soFar with
  | zero => exact extends_fail
  | succ bound ih =>
    obtain ⟨n, rfl⟩ := Nat.exists_eq_add_of_lt hbound
    have hle : bound ≤ bound + n := Nat.le_add_right _ _
    refine extends_readHead.bind fun head => ?_
    cases head with
    | stop => exact .ite (.pure soFar) (ih hle _ _)
    | bytes length =>
      cases length with
      | none => exact ih hle _ _
      | some k => exact (extends_readLargePart soFar k).bind fun part => ih hle _ _
    | _ => exact extends_fail

theorem extends_readLarge (hbound : bound ≤ bound') :
    Extends (readLarge bound) (readLarge bound') := by
  refine extends_readHead.bind fun head => ?_
  cases head with
  | bytes length =>
    cases length with
    | none => exact (extends_readLargeParts hbound 1 []).bind fun _ => .pure _
    | some n => exact (extends_readLargePart [] n).bind fun _ => .pure _
  | _ => exact extends_fail

theorem extends_readInteger (hbound : bound ≤ bound') :
    Extends (readInteger bound) (readInteger bound') := by
  induction bound generalizing bound' with
  | zero => exact extends_fail
  | succ bound ih =>
    obtain ⟨n, rfl⟩ := Nat.exists_eq_add_of_lt hbound
    have hle : bound ≤ bound + n := Nat.le_add_right _ _
    refine extends_readHead.bind fun head => ?_
    cases head with
    | positive | negative => exact .pure _
    | tag k =>
      match k with
      | 2 | 3 => exact (extends_readLarge hle).bind fun _ => .pure _
      | 0 | 1 | k + 4 => exact ih hle
    | _ => exact extends_fail

theorem extends_readIntegerIn (hbound : bound ≤ bound') (low high : Int) :
    Extends (readIntegerIn bound low high) (readIntegerIn bound' low high) :=
  (extends_readInteger hbound).bind fun _ => .ite (.pure _) extends_fail

theorem extends_readUInt8 (hbound : bound ≤ bound') :
    Extends (readUInt8 bound) (readUInt8 bound') :=
  (extends_readIntegerIn hbound _ _).bind fun _ => .pure _

theorem extends_readUInt32 (hbound : bound ≤ bound') :
    Extends (readUInt32 bound) (readUInt32 bound') :=
  (extends_readIntegerIn hbound _ _).bind fun _ => .pure _

theorem extends_readSize (hbound : bound ≤ bound') :
    Extends (readSize bound) (readSize bound') :=
  (extends_readIntegerIn hbound _ _).bind fun _ => .pure _

theorem extends_readInt32 (hbound : bound ≤ bound') :
    Extends (readInt32 bound) (readInt32 bound') :=
  (extends_readIntegerIn hbound _ _).bind fun _ => .pure _

theorem extends_readDouble (hbound : bound ≤ bound') :
    Extends (readDouble bound) (readDouble bound') := by
  refine (extends_readUntagged hbound).bind fun head => ?_
  cases head with
  | float x => exact .pure x
  | _ => exact extends_fail

theorem extends_readBool (hbound : bound ≤ bound') :
    Extends (readBool bound) (readBool bound') := by
  refine (extends_readUntagged hbound).bind fun head => ?_
  split
  · exact .pure false
  · exact .pure true
  · exact extends_fail

/-! ## Sequences -/

theorem extends_readNext {item item' : Reader α} (hitem : Extends item item')
    (length : Option Nat) : Extends (readNext item length) (readNext item' length) := by
  match length with
  | some 0 => exact .pure none
  | some (n + 1) => exact hitem.bind fun _ => .pure _
  | none =>
    intro bytes found rest more hread
    simp only [readNext] at hread ⊢
    rcases hhead : readHead bytes with why | ⟨head, tail⟩
    · rw [hhead] at hread
      cases hread
    · rw [hhead] at hread
      rw [extends_readHead bytes head tail more hhead]
      cases head with
      | stop =>
        cases hread
        rfl
      | _ =>
        -- a head that is no stop is read again, as that of the element
        dsimp only at hread ⊢
        split at hread
        case h_1 => cases hread
        case h_2 x left hx =>
          cases hread
          rw [hitem bytes x rest more hx]

theorem extends_readExactly {item item' : Reader α} (hitem : Extends item item') (n : Nat) :
    Extends (readExactly item n) (readExactly item' n) := by
  induction n with
  | zero => exact .pure []
  | succ n ih => exact hitem.bind fun x => ih.bind fun xs => .pure _

theorem extends_readToStop {item item' : Reader α} (hitem : Extends item item')
    (hbound : bound ≤ bound') : Extends (readToStop item bound) (readToStop item' bound') := by
  induction bound generalizing bound' with
  | zero => exact extends_fail
  | succ bound ih =>
    obtain ⟨n, rfl⟩ := Nat.exists_eq_add_of_lt hbound
    refine (extends_readNext hitem none).bind fun found => ?_
    rcases found with _ | ⟨x, _⟩
    · exact .pure []
    · exact (ih (Nat.le_add_right _ _)).bind fun xs => .pure _

theorem extends_readElements {item item' : Reader α} (hitem : Extends item item')
    (hbound : bound ≤ bound') (length : Option Nat) :
    Extends (readElements bound item length) (readElements bound' item' length) := by
  cases length with
  | some n => exact extends_readExactly hitem n
  | none => exact extends_readToStop hitem hbound

theorem extends_readSequence {item item' : Reader α} (hitem : Extends item item')
    (hbound : bound ≤ bound') (ofByte : UInt8 → Option α) :
    Extends (readSequence bound item ofByte) (readSequence bound' item' ofByte) := by
  refine (extends_readUntagged hbound).bind fun head => ?_
  cases head with
  | array length => exact extends_readElements hitem hbound length
  | bytes length =>
    refine (extends_readBytes hbound length).bind fun data => ?_
    rcases data.mapM ofByte with _ | items
    · exact extends_fail
    · exact .pure items
  | _ => exact extends_fail

theorem extends_readList {item item' : Reader α} (hitem : Extends item item')
    (hbound : bound ≤ bound') : Extends (readList bound item) (readList bound' item') :=
  extends_readSequence hitem hbound _

theorem extends_readPair {first first' : Reader α} {second second' : Reader β}
    (hfirst : Extends first first') (hsecond : Extends second second') (hbound : bound ≤ bound') :
    Extends (readPair bound first second) (readPair bound' first' second') := by
  refine (extends_readUntagged hbound).bind fun head => ?_
  cases head with
  | array length =>
    refine (extends_readNext hfirst length).bind fun found => ?_
    rcases found with _ | ⟨x, left⟩
    · exact extends_fail
    · refine (extends_readNext hsecond left).bind fun found => ?_
      rcases found with _ | ⟨y, _⟩
      · exact extends_fail
      · exact .pure (x, y)
  | bytes length => exact (extends_readBytes hbound length).bind fun _ => extends_fail
  | _ => exact extends_fail

theorem extends_readColumn (hbound : bound ≤ bound') :
    Extends (readColumn bound) (readColumn bound') := by
  refine (extends_readUntagged hbound).bind fun head => ?_
  cases head with
  | bytes length => exact extends_readBytes hbound length
  | array length => exact extends_readElements (extends_readUInt8 hbound) hbound length
  | _ => exact extends_fail

/-! ## Maps -/

theorem extends_readKey (hbound : bound ≤ bound') : Extends (readKey bound) (readKey bound') := by
  refine (extends_readUntagged hbound).bind fun head => ?_
  cases head with
  | text length =>
    cases length with
    | none => exact extends_fail
    | some n =>
      have hkey : Extends
          (takeBytes n >>= fun key =>
            if (ofUtf8? key).isSome then Pure.pure key else fail .malformed)
          (takeBytes n >>= fun key =>
            if (ofUtf8? key).isSome then Pure.pure key else fail .malformed) :=
        (extends_takeBytes n).bind fun key => .ite (.pure key) extends_fail
      exact .ite hkey extends_fail
  | bytes length =>
    cases length with
    | none => exact extends_fail
    | some n => exact .ite (extends_takeBytes n) extends_fail
  | _ => exact extends_fail

theorem extends_readEntries {entry entry' : Bytes → σ → Reader σ} {key key' : Reader Bytes}
    (hkey : Extends key key') (hentry : ∀ k state, Extends (entry k state) (entry' k state))
    (hbound : bound ≤ bound') (length : Option Nat) (first : σ) :
    Extends (readEntries bound entry key length first)
      (readEntries bound' entry' key' length first) := by
  cases length with
  | some n =>
    change Extends (readEntries.exactly entry key n first)
      (readEntries.exactly entry' key' n first)
    induction n generalizing first with
    | zero => exact .pure first
    | succ n ih => exact hkey.bind fun k => (hentry k first).bind fun next => ih next
  | none =>
    change Extends (readEntries.toStop entry key bound first)
      (readEntries.toStop entry' key' bound' first)
    induction bound generalizing bound' first with
    | zero => exact extends_fail
    | succ bound ih =>
      obtain ⟨n, rfl⟩ := Nat.exists_eq_add_of_lt hbound
      refine (extends_readNext hkey none).bind fun found => ?_
      rcases found with _ | ⟨k, _⟩
      · exact .pure first
      · exact (hentry k first).bind fun next => ih (Nat.le_add_right _ _) next

theorem extends_readMap {entry entry' : Bytes → σ → Reader σ}
    (hentry : ∀ k state, Extends (entry k state) (entry' k state)) (hbound : bound ≤ bound')
    (first : σ) : Extends (readMap bound entry first) (readMap bound' entry' first) := by
  refine (extends_readUntagged hbound).bind fun head => ?_
  cases head with
  | map length => exact extends_readEntries (extends_readKey hbound) hentry hbound length first
  | _ => exact extends_fail

/-! ## Items that are passed over -/

theorem extends_peekHead : Extends peekHead peekHead := by
  intro bytes head rest more hread
  unfold peekHead at hread ⊢
  split at hread
  case h_1 => cases hread
  case h_2 head tail hhead =>
    cases hread
    rw [extends_readHead bytes head tail more hhead]

theorem extends_skipLarge (hbound : bound ≤ bound') (tag : Nat) :
    Extends (skipLarge bound tag) (skipLarge bound' tag) :=
  (extends_readLarge hbound).bind fun _ => .ite extends_fail (.pure ())

theorem extends_skipItem {inner inner' : Option (Reader Unit)}
    (hinner : Option.Rel Extends inner inner') (hbound : bound ≤ bound') :
    Extends (skipItem bound inner) (skipItem bound' inner') := by
  refine extends_readHead.bind fun head => ?_
  cases head with
  | positive | negative | float => exact .pure ()
  | bytes length => exact (extends_readBytes hbound length).bind fun _ => .pure ()
  | text length => exact (extends_readText hbound length).bind fun _ => .pure ()
  | array length =>
    cases hinner with
    | none => exact extends_fail
    | some hitem => exact (extends_readElements hitem hbound length).bind fun _ => .pure ()
  | map length =>
    cases hinner with
    | none => exact extends_fail
    | some hitem =>
      exact extends_readEntries (hitem.bind fun _ => .pure []) (fun _ _ => hitem) hbound length ()
  | tag n =>
    refine extends_peekHead.bind fun next => .ite (extends_skipLarge hbound n) ?_
    cases hinner with
    | none => exact extends_fail
    | some hitem => exact hitem
  | simple n => exact .ite (.pure ()) extends_fail
  | stop => exact extends_fail

theorem extends_skip (hbound : bound ≤ bound') (depth : Nat) :
    Extends (skip bound depth) (skip bound' depth) := by
  induction depth with
  | zero => exact extends_skipItem .none hbound
  | succ depth ih => exact extends_skipItem (.some ih) hbound

/-! ## Bodies -/

theorem extends_readOnce {r r' : Reader α} (hr : Extends r r') (old : Option α) :
    Extends (readOnce old r) (readOnce old r') := by
  cases old with
  | none => exact hr.bind fun _ => .pure _
  | some _ => exact extends_fail

/-- The value of a field is read and put into its place. -/
theorem extends_field {r r' : Reader α} (hr : Extends r r') (old : Option α)
    (update : Option α → σ) :
    Extends (do return update (← readOnce old r)) (do return update (← readOnce old r')) :=
  (extends_readOnce hr old).bind fun _ => .pure _

theorem extends_need (value : Option α) : Extends (need value) (need value) := by
  cases value with
  | none => exact extends_fail
  | some x => exact .pure x

/-- The value of a key that is not known is passed over. -/
theorem extends_other (hbound : bound ≤ bound') (depth : Nat) (state : σ) :
    Extends (do skip bound depth; return state) (do skip bound' depth; return state) :=
  (extends_skip hbound depth).bind fun _ => .pure state

theorem extends_readColumnBody (hbound : bound ≤ bound') (depth : Nat) :
    Extends (readColumnBody bound depth) (readColumnBody bound' depth) := by
  refine Extends.bind (extends_readMap (fun key fields => ?entry) hbound _) fun fields => ?last
  case entry =>
    refine .ite (extends_field (extends_readSize hbound) _ _) ?_
    refine .ite (extends_field (extends_readSize hbound) _ _) ?_
    exact .ite (extends_field (extends_readColumn hbound) _ _) (extends_other hbound depth fields)
  case last =>
    refine (extends_need fields.stride).bind fun stride => ?_
    refine (extends_need fields.count).bind fun count => ?_
    exact (extends_need fields.data).bind fun data => .pure _

theorem extends_readCollectionBody (hbound : bound ≤ bound') (depth : Nat) :
    Extends (readCollectionBody bound depth) (readCollectionBody bound' depth) := by
  have hcolumns := extends_readList (extends_readColumnBody hbound (depth - 2)) hbound
  refine Extends.bind (extends_readMap (fun key fields => ?entry) hbound _) fun fields => ?last
  case entry =>
    refine .ite (extends_field (extends_readString hbound) _ _) ?_
    refine .ite (extends_field (extends_readString hbound) _ _) ?_
    refine .ite (extends_field (extends_readBool hbound) _ _) ?_
    refine .ite (extends_field (extends_readColumnBody hbound (depth - 1)) _ _) ?_
    refine .ite (extends_field hcolumns _ _) ?_
    exact .ite (extends_field hcolumns _ _) (extends_other hbound depth fields)
  case last =>
    refine (extends_need fields.name).bind fun name => ?_
    refine (extends_need fields.type).bind fun type => ?_
    refine (extends_need fields.subset).bind fun subset => ?_
    refine (extends_need fields.records).bind fun records => ?_
    refine (extends_need fields.relations).bind fun relations => ?_
    exact (extends_need fields.members).bind fun members => .pure _

theorem extends_readEntriesOf {value value' : Reader α} (hvalue : Extends value value')
    (hbound : bound ≤ bound') (ofByte : UInt8 → Option α) :
    Extends (readEntriesOf bound value ofByte) (readEntriesOf bound' value' ofByte) :=
  extends_readList (extends_readPair (extends_readString hbound)
    (extends_readSequence hvalue hbound ofByte) hbound) hbound

theorem extends_readParameterBody (hbound : bound ≤ bound') (depth : Nat) :
    Extends (readParameterBody bound depth) (readParameterBody bound' depth) := by
  have hsingle := (extends_readDouble hbound).map Binary64.narrow
  refine Extends.bind (extends_readMap (fun key fields => ?entry) hbound _) fun fields => ?last
  case entry =>
    refine .ite (extends_field (extends_readEntriesOf (extends_readInt32 hbound) hbound _) _ _) ?_
    refine .ite (extends_field (extends_readEntriesOf hsingle hbound _) _ _) ?_
    refine .ite (extends_field (extends_readEntriesOf (extends_readDouble hbound) hbound _) _ _) ?_
    exact .ite (extends_field (extends_readEntriesOf (extends_readString hbound) hbound _) _ _)
      (extends_other hbound depth fields)
  case last =>
    refine (extends_need fields.ints).bind fun ints => ?_
    refine (extends_need fields.floats).bind fun floats => ?_
    refine (extends_need fields.doubles).bind fun doubles => ?_
    exact (extends_need fields.strings).bind fun strings => .pure _

theorem extends_readFrameBody (hbound : bound ≤ bound') :
    Extends (readFrameBody bound) (readFrameBody bound') := by
  have hids := extends_readList (extends_readPair (extends_readString hbound)
    ((extends_readUInt32 hbound).map CollectionId.mk) hbound) hbound
  have hcollections :=
    extends_readList (extends_readCollectionBody hbound (depthLimit - 3)) hbound
  refine Extends.bind (extends_readMap (fun key fields => ?entry) hbound _) fun fields => ?last
  case entry =>
    refine .ite (extends_field hids _ _) (.ite (extends_field hcollections _ _) ?_)
    exact .ite (extends_field (extends_readParameterBody hbound (depthLimit - 2)) _ _)
      (extends_other hbound _ fields)
  case last =>
    refine (extends_need fields.ids).bind fun ids => ?_
    refine (extends_need fields.collections).bind fun collections => ?_
    exact (extends_need fields.parameters).bind fun parameters => .pure _

/-- A body that is read is read from every longer input too, with the same bytes taken. -/
theorem FrameBody.read_append {bytes rest : Bytes} {b : FrameBody}
    (hread : FrameBody.read bytes = .ok (b, rest)) (more : Bytes) :
    FrameBody.read (bytes ++ more) = .ok (b, rest ++ more) := by
  have hbound : bytes.length + 1 ≤ (bytes ++ more).length + 1 := by
    rw [List.length_append]
    omega
  exact extends_readFrameBody hbound bytes b rest more hread

/-- No proper front of the bytes of a body is read. -/
theorem FrameBody.read_of_front {b : FrameBody} (hb : b.Fits) {front more : Bytes}
    (hmore : more ≠ []) (henc : front ++ more = b.encode) :
    ∃ why, FrameBody.read front = .error why := by
  rcases hread : FrameBody.read front with why | ⟨b', rest⟩
  · exact ⟨why, rfl⟩
  · have hwhole : FrameBody.read (b.encode ++ []) = .ok (b.quiet, []) :=
      reads_readFrameBody (Nat.succ_pos _) hb []
    have hlonger := FrameBody.read_append hread more
    rw [henc, ← List.append_nil b.encode, hwhole] at hlonger
    -- the bytes that are missing in front would be left over, but nothing is
    have hrest : [] = rest ++ more := congrArg Prod.snd (Except.ok.inj hlonger)
    exact absurd (List.append_eq_nil_iff.1 hrest.symm).2 hmore

end EventModel.Wire
