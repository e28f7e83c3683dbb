import EventModel.Proofs.Wire.Accepted
import EventModel.Proofs.Wire.Prefix
import EventModel.Stream

/-!
# Frames through a stream

`BodyCodec.Lawful` says what a stream asks of the codec of its bodies, and `lawful_wire` that the
bodies of `Wire` have it. With such a codec a frame that can be stored is read back from its stream,
and what follows the stream is left alone; so are frames that were written one after the other.
Whatever a reader accepts can be stored again and comes back unchanged.
-/

namespace EventModel

open Wire

/-- What a stream asks of the codec of its bodies. -/
structure BodyCodec.Lawful (codec : BodyCodec) : Prop where
  /-- A body whose sizes are words is read back, whatever follows it. -/
  read_encode_append : ∀ b : FrameBody, b.Fits → ∀ rest,
    codec.read (codec.encode b ++ rest) = .ok (b.quiet, rest)
  /-- What is accepted has sizes that are words, and quiet numbers. -/
  accepted : ∀ bytes b rest, bytes.length < 2 ^ 64 → codec.read bytes = .ok (b, rest) →
    b.Fits ∧ b.parameters.IsQuiet
  /-- A body is read only as a whole. -/
  refused : ∀ b : FrameBody, b.Fits → ∀ front more, more ≠ [] → front ++ more = codec.encode b →
    ∃ why, codec.read front = .error why

theorem lawful_wire : BodyCodec.wire.Lawful where
  read_encode_append _ hb rest := reads_readFrameBody (Nat.succ_pos _) hb rest
  accepted bytes b rest hword hread :=
    have htaken := takes_readFrameBody bytes b rest hword hread
    htaken.2.2
  refused _ hb _ _ hmore henc := FrameBody.read_of_front hb hmore henc

namespace Stream

theorem length_header (version : UInt16) : (header version).length = headerSize := by
  simp [header, magic, headerSize]

/-! ## With any codec -/

section Codec

variable {codec : BodyCodec}

/-- What is read after the header of its version is a body. -/
theorem readWith_header (codec : BodyCodec) (config : StreamConfig) (bytes : Bytes) :
    readWith codec config (header config.version ++ bytes) =
      match codec.read bytes with
      | .error why => .error (.decodingFailed why why.reason)
      | .ok (body, rest) =>
        match body.toData with
        | .error e => .error (.content e)
        | .ok data => .ok (data, rest) := by
  have hlength := length_header config.version
  have htake : (header config.version ++ bytes).take headerSize = header config.version := by
    rw [← hlength, List.take_left]
  have hdrop : (header config.version ++ bytes).drop headerSize = bytes := by
    rw [← hlength, List.drop_left]
  have hmagic : (header config.version).take 4 = magic := rfl
  have hversion : UInt16.ofNat (LittleEndian.value ((header config.version).drop 4)) =
      config.version := by
    change UInt16.ofNat (LittleEndian.value (LittleEndian.encode 2 config.version.toNat)) = _
    simp [LittleEndian.value_encode]
  unfold readWith
  dsimp only
  rw [htake, hdrop, hmagic, hversion, hlength]
  exact (if_neg (Nat.lt_irrefl _)).trans
    ((if_neg fun h => h rfl).trans (if_neg fun h => h rfl))

/-- A frame is read back from its stream, whatever follows it. -/
theorem readWith_encodeWith_append (hcodec : codec.Lawful) (config : StreamConfig) {d : FrameData}
    (hd : d.Storable) (rest : Bytes) :
    readWith codec config (encodeWith codec config d ++ rest) = .ok (d.quiet, rest) := by
  have hbody := hcodec.read_encode_append (.ofData d) hd.fits rest
  have hdata : (FrameBody.ofData d).quiet.toData = .ok d.quiet := toData_ofData hd
  rw [encodeWith, List.append_assoc]
  simp only [readWith_header, hbody, hdata]

/-- The frames at the front of a stream with bodies of this codec, so many as are asked for, and what
follows them. -/
def readManyWith (codec : BodyCodec) (config : StreamConfig) :
    Nat → Bytes → Except StreamError (List FrameData × Bytes)
  | 0, bytes => .ok ([], bytes)
  | n + 1, bytes => do
    let (data, rest) ← readWith codec config bytes
    let (others, rest) ← readManyWith codec config n rest
    return (data :: others, rest)

/-- Frames that were written one after the other are read back. -/
theorem readManyWith_encodeWith (hcodec : codec.Lawful) (config : StreamConfig)
    {frames : List FrameData} (hframes : ∀ d ∈ frames, d.Storable) (rest : Bytes) :
    readManyWith codec config frames.length
        (frames.flatMap (encodeWith codec config) ++ rest) =
      .ok (frames.map FrameData.quiet, rest) := by
  induction frames with
  | nil => rfl
  | cons d frames ih =>
    have hfirst := readWith_encodeWith_append hcodec config (hframes d List.mem_cons_self)
      (frames.flatMap (encodeWith codec config) ++ rest)
    have hothers := ih fun other hother => hframes other (List.mem_cons_of_mem d hother)
    rw [List.flatMap_cons, List.append_assoc]
    exact bind_eq_ok_iff.2 ⟨_, hfirst, bind_eq_ok_iff.2 ⟨_, hothers, rfl⟩⟩

/-- A frame that is read was accepted as a body. -/
theorem exists_body_of_readWith {config : StreamConfig} {bytes rest : Bytes} {d : FrameData}
    (h : readWith codec config bytes = .ok (d, rest)) :
    ∃ body, codec.read (bytes.drop headerSize) = .ok (body, rest) ∧ body.toData = .ok d := by
  unfold readWith at h
  dsimp only at h
  split at h
  · cases h
  split at h
  · cases h
  split at h
  · cases h
  split at h
  case h_1 => cases h
  case h_2 body left hbody =>
    split at h
    case h_1 => cases h
    case h_2 data hdata =>
      cases h
      exact ⟨body, hbody, hdata⟩

/-- Whatever is read can be stored again, and its numbers of single precision are quiet. -/
theorem storable_of_readWith (hcodec : codec.Lawful) {config : StreamConfig} {bytes rest : Bytes}
    {d : FrameData} (hword : bytes.length < 2 ^ 64)
    (h : readWith codec config bytes = .ok (d, rest)) : d.Storable ∧ d.parameters.IsQuiet := by
  rcases exists_body_of_readWith h with ⟨body, hbody, hdata⟩
  have hlength : (bytes.drop headerSize).length < 2 ^ 64 := by
    have hdrop : (bytes.drop headerSize).length = bytes.length - headerSize := List.length_drop
    omega
  rcases hcodec.accepted _ body rest hlength hbody with ⟨hfits, hquiet⟩
  refine ⟨storable_of_toData hfits hdata, ?_⟩
  have hparameters := parameters_of_toData hdata
  exact hparameters ▸ hquiet.toParameters

end Codec

/-! ## With the bodies of `Wire` -/

/-- A frame is read back from its stream, whatever follows it. -/
theorem read_encode_append (config : StreamConfig) {d : FrameData} (hd : d.Storable)
    (rest : Bytes) : read config (encode config d ++ rest) = .ok (d.quiet, rest) :=
  readWith_encodeWith_append lawful_wire config hd rest

/-- Whatever is read can be stored again, and its numbers of single precision are quiet. -/
theorem storable_of_read {config : StreamConfig} {bytes rest : Bytes} {d : FrameData}
    (hword : bytes.length < 2 ^ 64) (h : read config bytes = .ok (d, rest)) :
    d.Storable ∧ d.parameters.IsQuiet :=
  storable_of_readWith lawful_wire hword h

/-- The frames at the front of a stream, so many as are asked for, and what follows them. -/
def readMany (config : StreamConfig) : Nat → Bytes → Except StreamError (List FrameData × Bytes) :=
  readManyWith .wire config

theorem readMany_encode (config : StreamConfig) {frames : List FrameData}
    (hframes : ∀ d ∈ frames, d.Storable) (rest : Bytes) :
    readMany config frames.length (frames.flatMap (encode config) ++ rest) =
      .ok (frames.map FrameData.quiet, rest) :=
  readManyWith_encodeWith lawful_wire config hframes rest

/-- Streams are read back. Every frame that can be stored comes back from its stream with what
follows it left alone; numbers of single precision come back bit for bit but for signalling NaNs,
which become quiet. Frames written one after the other are read back with nothing left over. And
whatever is accepted has distinct and valid numbers, can be stored again and is read back as it
is. -/
theorem stream_roundTrip (config : StreamConfig) :
    (∀ d : FrameData, d.Storable → ∀ rest,
        read config (encode config d ++ rest) = .ok (d.quiet, rest)) ∧
      (∀ d : FrameData, d.parameters.IsQuiet → d.quiet = d) ∧
      (∀ frames : List FrameData, (∀ d ∈ frames, d.Storable) →
        readMany config frames.length (frames.flatMap (encode config)) =
          .ok (frames.map FrameData.quiet, [])) ∧
      ∀ bytes rest d, bytes.length < 2 ^ 64 → read config bytes = .ok (d, rest) →
        d.ids.WellNumbered ∧ d.Storable ∧ d.parameters.IsQuiet ∧
          decode config (encode config d) = .ok d := by
  refine ⟨fun d hd rest => read_encode_append config hd rest, ?_, ?_, ?_⟩
  · intro d hquiet
    exact FrameData.quiet_eq_self hquiet
  · intro frames hframes
    have hread := readMany_encode config hframes []
    rwa [List.append_nil] at hread
  · intro bytes rest d hword h
    rcases storable_of_read hword h with ⟨hd, hquiet⟩
    have hback : read config (encode config d) = .ok (d, []) := by
      have hread := read_encode_append config hd []
      rwa [List.append_nil, FrameData.quiet_eq_self hquiet] at hread
    have hdecode : decode config (encode config d) = .ok d := by
      simp [decode, hback, Except.map]
    exact ⟨hd.built.wellNumbered, hd, hquiet, hdecode⟩

/-- A frame with one collection, which has elements without bytes, and with a parameter. -/
def hitFrame : FrameData where
  ids := ⟨[("hits", ⟨1⟩)], 2⟩
  collections := [("hits",
    { type := "Hit"
      subset := false
      records := ⟨[0x2a, 0], 2, 1, rfl⟩
      relations := []
      members := [⟨[], 0, 3, by decide⟩] })]
  parameters := Parameters.empty.set .float "field" [⟨0x3f800000⟩]

theorem storable_hitFrame : hitFrame.Storable where
  built := .ofPairs (show IdTable.ofPairs [("hits", ⟨1⟩)] = .ok hitFrame.ids by decide)
  sorted := Parameters.isSorted_empty.set .float "field" [⟨0x3f800000⟩]
  fits := by decide

theorem stream_roundTrip_hitFrame :
    read {} (encode {} hitFrame ++ [0xff]) = .ok (hitFrame, [0xff]) ∧
      readMany {} 2 (encode {} hitFrame ++ encode {} hitFrame) =
        .ok ([hitFrame, hitFrame], []) ∧
      decode {} (encode {} hitFrame) = .ok hitFrame := by
  rcases stream_roundTrip {} with ⟨hone, hquiet, hmany, haccepted⟩
  have hsame : hitFrame.quiet = hitFrame := hquiet hitFrame (by decide)
  have hread := hone hitFrame storable_hitFrame [0xff]
  have hboth := hmany [hitFrame, hitFrame] (by simp [storable_hitFrame])
  have hlength : (encode {} hitFrame ++ [0xff]).length < 2 ^ 64 := by decide +kernel
  have hagain := haccepted _ [0xff] hitFrame.quiet hlength hread
  rw [hsame] at hread
  simp only [List.map_cons, List.map_nil, hsame, List.flatMap_cons, List.flatMap_nil,
    List.append_nil] at hboth
  rw [hsame] at hagain
  exact ⟨hread, hboth, hagain.2.2.2⟩

end Stream
end EventModel
