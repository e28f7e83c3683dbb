import EventModel.Wire.Body

/-!
# Frame streams

A stream holds frames one after the other. Each starts with four bytes that mark a frame and two
bytes for the version of the format, and goes on with the body, which a codec writes and reads. A
reader takes exactly the bytes of one frame and leaves what follows.
-/

namespace EventModel

/-- The settings of writers and readers. -/
structure StreamConfig where
  /-- The version that is written, and the only one that is read. -/
  version : UInt16 := 1
  /-- Whether frames that are read are verified. -/
  verify : Bool := true
  deriving DecidableEq, Repr

/-- The text that shows the settings. -/
def StreamConfig.describe (c : StreamConfig) : String :=
  Text.structureText "CodecConfig"
    [("format_version", toString c.version.toNat), ("verify_on_read", toString c.verify)] true

/-- How frames that are read are rebuilt. -/
def StreamConfig.rebuildConfig (c : StreamConfig) : Config :=
  { verify := c.verify }

/-- The causes for which a stream is not written or not read. -/
inductive StreamError
  /-- The input ends within a header, or the output has no room for one. -/
  | transfer (reason : String)
  | encodingFailed (reason : String)
  | decodingFailed (why : Wire.Failure) (reason : String)
  | invalidMagic (found : Bytes)
  | unsupportedVersion (found expected : UInt16)
  | invalidStructure (reason : String)
  /-- The contents of the frame are refused. -/
  | content (error : Error)
  deriving DecidableEq, Repr

namespace StreamError

/-- The name of the cause. -/
def kind : StreamError → String
  | transfer _ => "Io"
  | encodingFailed _ => "EncodingFailed"
  | decodingFailed _ _ => "DecodingFailed"
  | invalidMagic _ => "InvalidMagic"
  | unsupportedVersion _ _ => "UnsupportedVersion"
  | invalidStructure _ => "InvalidStructure"
  | content error => error.kind

/-- The text of an error. -/
def message : StreamError → String
  | transfer reason => "I/O error: " ++ reason
  | encodingFailed reason => "encoding failed: " ++ reason
  | decodingFailed _ reason => "decoding failed: " ++ reason
  | invalidMagic found =>
    "invalid magic: expected EDMF, got " ++ Text.listText (found.map fun b => toString b.toNat)
  | unsupportedVersion found expected =>
    "unsupported format version " ++ toString found.toNat ++ " (expected "
      ++ toString expected.toNat ++ ")"
  | invalidStructure reason => "invalid frame structure: " ++ reason
  | content error => error.message

end StreamError

/-- A way to write bodies, and to read the one at the front of some bytes with what follows it. -/
structure BodyCodec where
  encode : Wire.FrameBody → Bytes
  read : Bytes → Except Wire.Failure (Wire.FrameBody × Bytes)

/-- Bodies as maps of their fields. -/
def BodyCodec.wire : BodyCodec where
  encode := Wire.FrameBody.encode
  read := Wire.FrameBody.read

namespace Stream

/-- The mark at the start of a frame: the letters EDMF. -/
def magic : Bytes :=
  [0x45, 0x44, 0x4d, 0x46]

/-- The number of bytes before the body. -/
def headerSize : Nat :=
  6

/-- The mark of a frame and the version. -/
def header (version : UInt16) : Bytes :=
  magic ++ LittleEndian.encode 2 version.toNat

/-- The stream of one frame with a body of this codec. -/
def encodeWith (codec : BodyCodec) (config : StreamConfig) (data : FrameData) : Bytes :=
  header config.version ++ codec.encode (.ofData data)

/-- The stream of one frame. -/
def encode (config : StreamConfig) (data : FrameData) : Bytes :=
  encodeWith .wire config data

/-- Writes a frame into a room of a fixed size; what is not used of it stays zero. -/
def encodeInto (config : StreamConfig) (room : Nat) (data : FrameData) :
    Except StreamError Bytes :=
  let bytes := encode config data
  if room < headerSize then .error (.transfer "failed to write whole buffer")
  else if room < bytes.length then .error (.encodingFailed "no room is left")
  else .ok (bytes ++ List.replicate (room - bytes.length) 0)

/-- The flat form of the frame at the front of a stream with bodies of this codec, and what follows
it. -/
def readWith (codec : BodyCodec) (config : StreamConfig) (bytes : Bytes) :
    Except StreamError (FrameData × Bytes) :=
  let head := bytes.take headerSize
  if head.length < headerSize then .error (.transfer "failed to fill whole buffer")
  else if head.take 4 ≠ magic then .error (.invalidMagic (head.take 4))
  else
    let version := UInt16.ofNat (LittleEndian.value (head.drop 4))
    if version ≠ config.version then .error (.unsupportedVersion version config.version)
    else
      match codec.read (bytes.drop headerSize) with
      | .error why => .error (.decodingFailed why why.reason)
      | .ok (body, rest) =>
        match body.toData with
        | .error e => .error (.content e)
        | .ok data => .ok (data, rest)

/-- The flat form of the frame at the front of a stream, and what follows it. -/
def read (config : StreamConfig) (bytes : Bytes) : Except StreamError (FrameData × Bytes) :=
  readWith .wire config bytes

/-- The flat form of the frame at the front of a stream. -/
def decode (config : StreamConfig) (bytes : Bytes) : Except StreamError FrameData :=
  (read config bytes).map (·.1)

end Stream

namespace Store

/-- The stream of a frame. -/
def writeStream (config : StreamConfig) (f : FrameKey) : Action Bytes := do
  return Stream.encode config (← writeFrame f)

/-- Rebuilds the frame at the front of a stream. The second result is what follows the frame. -/
def readStream (config : StreamConfig) (registry : Registry) (bytes : Bytes) :
    StateM Store (Except StreamError (FrameKey × Bytes)) := fun s =>
  match Stream.read config bytes with
  | .error e => (.error e, s)
  | .ok (data, rest) =>
    match readFrame data registry config.rebuildConfig s with
    | (.ok f, s') => (.ok (f, rest), s')
    | (.error e, s') => (.error (.content e), s')

end Store

end EventModel
