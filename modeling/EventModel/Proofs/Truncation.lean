import EventModel.Proofs.Stream

/-!
# Streams that end too early

A stream that ends within a frame is refused, wherever it was cut: within the header as one that
ends too early, and behind the header as one without a body. So no frame is taken for a shorter one,
and the stream of a frame is never the front of the stream of another frame.
-/

namespace EventModel.Stream

open Wire

variable {config : StreamConfig} {bytes front : Bytes}

/-! ## With any codec -/

section Codec

variable {codec : BodyCodec}

/-- Less than a header is not looked at. -/
theorem readWith_of_length_lt (codec : BodyCodec) (h : bytes.length < headerSize) :
    readWith codec config bytes = .error (.transfer "failed to fill whole buffer") := by
  have hhead : (bytes.take headerSize).length < headerSize := by
    rw [List.length_take]
    omega
  unfold readWith
  dsimp only
  rw [if_pos hhead]

/-- Behind the header a body is missing. -/
theorem readWith_of_body_error {why : Failure} (hbody : codec.read bytes = .error why) :
    readWith codec config (header config.version ++ bytes) =
      .error (.decodingFailed why why.reason) := by
  simp only [readWith_header, hbody]

/-- A front of a frame that has the header goes on with a front of the body. -/
theorem exists_front_of_body {d : FrameData} {more : Bytes} (hlength : headerSize ≤ front.length)
    (henc : front ++ more = encodeWith codec config d) :
    ∃ bytes, front = header config.version ++ bytes ∧
      bytes ++ more = codec.encode (.ofData d) := by
  have hheader := length_header config.version
  rcases List.append_eq_append_iff.1 henc with ⟨left, hleft, hmore⟩ | ⟨bytes, hfront, hbody⟩
  · -- the header is no longer than the front, so that nothing of it is left
    have hempty : left = [] := by
      rw [← List.length_eq_zero_iff]
      have hsum := congrArg List.length hleft
      rw [List.length_append] at hsum
      omega
    subst hempty
    rw [List.append_nil] at hleft
    exact ⟨[], by rw [List.append_nil, hleft], hmore⟩
  · exact ⟨bytes, hfront, hbody.symm⟩

/-- A frame that was cut off behind its header is refused. -/
theorem exists_readWith_of_front (hcodec : codec.Lawful) {d : FrameData} {more : Bytes}
    (hd : (FrameBody.ofData d).Fits) (hmore : more ≠ []) (hlength : headerSize ≤ front.length)
    (henc : front ++ more = encodeWith codec config d) :
    ∃ why, readWith codec config front = .error (.decodingFailed why why.reason) := by
  rcases exists_front_of_body hlength henc with ⟨bytes, rfl, hbody⟩
  rcases hcodec.refused _ hd bytes more hmore hbody with ⟨why, hwhy⟩
  exact ⟨why, readWith_of_body_error hwhy⟩

/-- The stream of a frame is no front of the stream of another one. -/
theorem eq_nil_of_encodeWith_append (hcodec : codec.Lawful) {d d' : FrameData} {more : Bytes}
    (hd : (FrameBody.ofData d).Fits) (hd' : (FrameBody.ofData d').Fits)
    (henc : encodeWith codec config d ++ more = encodeWith codec config d') : more = [] := by
  -- the headers are the same, so that one body would be the front of the other
  have hbodies : codec.encode (.ofData d) ++ more = codec.encode (.ofData d') := by
    rw [encodeWith, encodeWith, List.append_assoc] at henc
    exact List.append_cancel_left henc
  have hfront := hcodec.read_encode_append _ hd more
  have hwhole := hcodec.read_encode_append _ hd' []
  rw [hbodies, ← List.append_nil (codec.encode (.ofData d')), hwhole] at hfront
  exact (congrArg Prod.snd (Except.ok.inj hfront)).symm

end Codec

/-! ## With the bodies of `Wire` -/

theorem decode_eq_error {e : StreamError} (h : read config bytes = .error e) :
    decode config bytes = .error e := by
  rw [decode, h]
  rfl

/-- The version is all of a writer's settings that shows in a stream. -/
theorem encode_congr {writer reader : StreamConfig} (hversion : reader.version = writer.version)
    (d : FrameData) : encode writer d = encode reader d := by
  rw [encode, encode, encodeWith, encodeWith, hversion]

/-- A frame is read only as a whole. A reader of the version that was written refuses every front of
the stream of a frame: with less than a header the transfer has failed, and with the header the body
is not read. And no stream of a frame is the front of a longer one. -/
theorem truncated_refused {writer reader : StreamConfig} (hversion : reader.version = writer.version)
    {d : FrameData} (hd : (FrameBody.ofData d).Fits) :
    (∀ front, front <+: encode writer d → front ≠ encode writer d →
        (front.length < headerSize →
          ∃ reason, decode reader front = .error (.transfer reason)) ∧
        (headerSize ≤ front.length →
          ∃ why reason, decode reader front = .error (.decodingFailed why reason))) ∧
      ∀ d' : FrameData, (FrameBody.ofData d').Fits → encode writer d <+: encode writer d' →
        encode writer d = encode writer d' := by
  constructor
  · rintro front ⟨more, henc⟩ hproper
    have hmore : more ≠ [] := by
      rintro rfl
      exact hproper (by rw [← henc, List.append_nil])
    rw [encode_congr hversion] at henc
    refine ⟨fun hshort => ⟨_, decode_eq_error (readWith_of_length_lt .wire hshort)⟩, fun hlong => ?_⟩
    rcases exists_readWith_of_front lawful_wire hd hmore hlong henc with ⟨why, hwhy⟩
    exact ⟨why, why.reason, decode_eq_error hwhy⟩
  · rintro d' hd' ⟨more, henc⟩
    rw [← henc, eq_nil_of_encodeWith_append lawful_wire hd hd' henc, List.append_nil]

/-- Cut within the header, within a text and before its last byte. -/
theorem truncated_refused_hitFrame :
    (∃ reason, decode {} ((encode {} hitFrame).take 5) = .error (.transfer reason)) ∧
      (∃ why reason, decode {} ((encode {} hitFrame).take 12) = .error (.decodingFailed why reason)) ∧
      (∃ why reason, decode {} ((encode {} hitFrame).take ((encode {} hitFrame).length - 1)) =
        .error (.decodingFailed why reason)) ∧
      ¬ encode {} hitFrame <+: encode {} { hitFrame with parameters := .empty } := by
  have hfits : (FrameBody.ofData hitFrame).Fits := storable_hitFrame.fits
  rcases @truncated_refused {} {} rfl hitFrame hfits with ⟨hfront, hother⟩
  have hcut : ∀ n, (encode {} hitFrame).take n <+: encode {} hitFrame :=
    fun n => ⟨_, List.take_append_drop n _⟩
  refine ⟨(hfront _ (hcut 5) (by decide +kernel)).1 (by decide +kernel),
    (hfront _ (hcut 12) (by decide +kernel)).2 (by decide +kernel),
    (hfront _ (hcut _) (by decide +kernel)).2 (by decide +kernel), fun hfirst => ?_⟩
  have hsame := hother { hitFrame with parameters := .empty } (by decide) hfirst
  exact absurd hsame (by decide +kernel)

end EventModel.Stream
