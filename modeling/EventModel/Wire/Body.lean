import EventModel.Store.Frame
import EventModel.Wire.Reader

/-!
# The body of a stream

The body is one item: a map with the id table, the collections and the parameters of a frame. It is
written with fixed keys in a fixed order, so that equal frames have equal bytes. It is read with the
keys in any order; keys that are not known are passed over.
-/

namespace EventModel.Wire

/-- A column as it is written, before its extent is checked. -/
structure ColumnBody where
  stride : Nat
  count : Nat
  data : Bytes
  deriving DecidableEq

/-- A collection as it is written: its name in the frame and its columns. -/
structure CollectionBody where
  name : String
  type : String
  subset : Bool
  records : ColumnBody
  relations : List ColumnBody
  members : List ColumnBody
  deriving DecidableEq

/-- Parameters as they are written, in the order of their entries. -/
structure ParameterBody where
  ints : List (String × List Int32)
  floats : List (String × List Binary32)
  doubles : List (String × List Binary64)
  strings : List (String × List String)
  deriving DecidableEq

/-- The contents of a frame as they are written. -/
structure FrameBody where
  ids : List (String × CollectionId)
  collections : List CollectionBody
  parameters : ParameterBody
  deriving DecidableEq

/-! ## Conversion -/

def ColumnBody.ofRaw (raw : RawBytes) : ColumnBody :=
  ⟨raw.stride, raw.count, raw.data⟩

/-- The column, if its bytes are as many as its extent says. -/
def ColumnBody.toRaw (c : ColumnBody) : Except Error RawBytes :=
  RawBytes.ofParts c.data c.stride c.count

def CollectionBody.ofBuffers (name : String) (b : Buffers) : CollectionBody :=
  { name
    type := b.type
    subset := b.subset
    records := .ofRaw b.records
    relations := b.relations.map .ofRaw
    members := b.members.map .ofRaw }

def CollectionBody.toBuffers (c : CollectionBody) : Except Error (String × Buffers) := do
  let relations ← c.relations.mapM ColumnBody.toRaw
  let members ← c.members.mapM ColumnBody.toRaw
  let records ← c.records.toRaw
  return (c.name, { type := c.type, subset := c.subset, records, relations, members })

def ParameterBody.ofParameters (p : Parameters) : ParameterBody :=
  ⟨p.ints, p.floats, p.doubles, p.strings⟩

/-- The store with the entries of one kind; of two entries with one key the later counts. -/
def insertAll (k : ParameterKind) (entries : List (String × List k.Value)) (p : Parameters) :
    Parameters :=
  entries.foldl (fun p (key, values) => p.set k key values) p

def ParameterBody.toParameters (b : ParameterBody) : Parameters :=
  Parameters.empty |> insertAll .int b.ints |> insertAll .float b.floats
    |> insertAll .double b.doubles |> insertAll .string b.strings

def FrameBody.ofData (d : FrameData) : FrameBody :=
  { ids := d.ids.pairs
    collections := d.collections.map fun (name, b) => .ofBuffers name b
    parameters := .ofParameters d.parameters }

/-- The flat form of a frame; the id table is checked before the columns. -/
def FrameBody.toData (b : FrameBody) : Except Error FrameData := do
  let ids ← IdTable.ofPairs b.ids
  let collections ← b.collections.mapM CollectionBody.toBuffers
  return { ids, collections, parameters := b.parameters.toParameters }

/-! ## Writing -/

def encodeText (s : String) : Bytes :=
  encodeHead .text (utf8 s).length ++ utf8 s

def encodeBytes (data : Bytes) : Bytes :=
  encodeHead .bytes data.length ++ data

def encodeNat (n : Nat) : Bytes :=
  encodeHead .positive n

/-- A negative number `n` is written as `-1 - n`. -/
def encodeInt (n : Int) : Bytes :=
  if 0 ≤ n then encodeHead .positive n.toNat else encodeHead .negative (-1 - n).toNat

def encodeBool (b : Bool) : Bytes :=
  [if b then 0xf5 else 0xf4]

/-- The number of items, then the items. -/
def encodeList (item : α → Bytes) (items : List α) : Bytes :=
  encodeHead .array items.length ++ items.flatMap item

/-- A list of two items of different kinds. -/
def encodePair (first : α → Bytes) (second : β → Bytes) (pair : α × β) : Bytes :=
  encodeHead .array 2 ++ (first pair.1 ++ second pair.2)

/-- A map with the given keys and written values. -/
def encodeFields (fields : List (String × Bytes)) : Bytes :=
  encodeHead .map fields.length ++ fields.flatMap fun (key, value) => encodeText key ++ value

def ColumnBody.encode (c : ColumnBody) : Bytes :=
  encodeFields [("stride", encodeNat c.stride), ("len", encodeNat c.count),
    ("data", encodeBytes c.data)]

def CollectionBody.encode (c : CollectionBody) : Bytes :=
  encodeFields [("name", encodeText c.name), ("type_name", encodeText c.type),
    ("subset", encodeBool c.subset), ("records", c.records.encode),
    ("relations", encodeList ColumnBody.encode c.relations),
    ("members", encodeList ColumnBody.encode c.members)]

/-- The entries of one kind of parameters. -/
def encodeEntries (value : α → Bytes) (entries : List (String × List α)) : Bytes :=
  encodeList (encodePair encodeText (encodeList value)) entries

def ParameterBody.encode (p : ParameterBody) : Bytes :=
  encodeFields [("ints", encodeEntries (fun n => encodeInt n.toInt) p.ints),
    ("floats", encodeEntries (fun x => encodeFloat x.widen) p.floats),
    ("doubles", encodeEntries encodeFloat p.doubles),
    ("strings", encodeEntries encodeText p.strings)]

def FrameBody.encode (b : FrameBody) : Bytes :=
  encodeFields
    [("collection_ids",
        encodeList (encodePair encodeText fun id : CollectionId => encodeNat id.val.toNat) b.ids),
      ("collections", encodeList CollectionBody.encode b.collections),
      ("parameters", b.parameters.encode)]

/-! ## Reading -/

/-- How deep items may be nested, the enclosing ones included. -/
def depthLimit : Nat :=
  256

/-- Reads the value of a key that must not have one yet. -/
def readOnce (old : Option α) (value : Reader α) : Reader (Option α) :=
  match old with
  | some _ => fail .unexpected
  | none => do return some (← value)

/-- The value of a key that a map must have. -/
def need (value : Option α) : Reader α :=
  match value with
  | some x => return x
  | none => fail .unexpected

/-- The fields of a column that were read so far. -/
structure ColumnFields where
  stride : Option Nat := none
  count : Option Nat := none
  data : Option Bytes := none

/-- A column; `depth` is how deep what is passed over in it may be nested. -/
def readColumnBody (bound depth : Nat) : Reader ColumnBody := do
  let fields ← readMap bound (fun key (fields : ColumnFields) => do
    if key = utf8 "stride" then
      return { fields with stride := ← readOnce fields.stride (readSize bound) }
    else if key = utf8 "len" then
      return { fields with count := ← readOnce fields.count (readSize bound) }
    else if key = utf8 "data" then
      return { fields with data := ← readOnce fields.data (readColumn bound) }
    else
      skip bound depth
      return fields) {}
  return ⟨← need fields.stride, ← need fields.count, ← need fields.data⟩

/-- The fields of a collection that were read so far. -/
structure CollectionFields where
  name : Option String := none
  type : Option String := none
  subset : Option Bool := none
  records : Option ColumnBody := none
  relations : Option (List ColumnBody) := none
  members : Option (List ColumnBody) := none

def readCollectionBody (bound depth : Nat) : Reader CollectionBody := do
  let fields ← readMap bound (fun key (fields : CollectionFields) => do
    if key = utf8 "name" then
      return { fields with name := ← readOnce fields.name (readString bound) }
    else if key = utf8 "type_name" then
      return { fields with type := ← readOnce fields.type (readString bound) }
    else if key = utf8 "subset" then
      return { fields with subset := ← readOnce fields.subset (readBool bound) }
    else if key = utf8 "records" then
      return { fields with
        records := ← readOnce fields.records (readColumnBody bound (depth - 1)) }
    else if key = utf8 "relations" then
      return { fields with
        relations := ← readOnce fields.relations
          (readList bound (readColumnBody bound (depth - 2))) }
    else if key = utf8 "members" then
      return { fields with
        members := ← readOnce fields.members
          (readList bound (readColumnBody bound (depth - 2))) }
    else
      skip bound depth
      return fields) {}
  return {
    name := ← need fields.name
    type := ← need fields.type
    subset := ← need fields.subset
    records := ← need fields.records
    relations := ← need fields.relations
    members := ← need fields.members }

/-- The fields of the parameters that were read so far. -/
structure ParameterFields where
  ints : Option (List (String × List Int32)) := none
  floats : Option (List (String × List Binary32)) := none
  doubles : Option (List (String × List Binary64)) := none
  strings : Option (List (String × List String)) := none

/-- The entries of one kind of parameters. A byte string counts as a list of numbers. -/
def readEntriesOf (bound : Nat) (value : Reader α) (ofByte : UInt8 → Option α) :
    Reader (List (String × List α)) :=
  readList bound (readPair bound (readString bound) (readSequence bound value ofByte))

def readParameterBody (bound depth : Nat) : Reader ParameterBody := do
  let fields ← readMap bound (fun key (fields : ParameterFields) => do
    if key = utf8 "ints" then
      return { fields with
        ints := ← readOnce fields.ints
          (readEntriesOf bound (readInt32 bound) fun b => some (Int32.ofNat b.toNat)) }
    else if key = utf8 "floats" then
      return { fields with
        floats := ← readOnce fields.floats
          (readEntriesOf bound (Binary64.narrow <$> readDouble bound)
            fun b => some (.ofNat b.toNat)) }
    else if key = utf8 "doubles" then
      return { fields with
        doubles := ← readOnce fields.doubles
          (readEntriesOf bound (readDouble bound) fun b => some (.ofNat b.toNat)) }
    else if key = utf8 "strings" then
      return { fields with
        strings := ← readOnce fields.strings
          (readEntriesOf bound (readString bound) fun _ => none) }
    else
      skip bound depth
      return fields) {}
  return {
    ints := ← need fields.ints
    floats := ← need fields.floats
    doubles := ← need fields.doubles
    strings := ← need fields.strings }

/-- The fields of a frame that were read so far. -/
structure FrameFields where
  ids : Option (List (String × CollectionId)) := none
  collections : Option (List CollectionBody) := none
  parameters : Option ParameterBody := none

def readFrameBody (bound : Nat) : Reader FrameBody := do
  let fields ← readMap bound (fun key (fields : FrameFields) => do
    if key = utf8 "collection_ids" then
      return { fields with
        ids := ← readOnce fields.ids
          (readList bound (readPair bound (readString bound)
            (CollectionId.mk <$> readUInt32 bound))) }
    else if key = utf8 "collections" then
      return { fields with
        collections := ← readOnce fields.collections
          (readList bound (readCollectionBody bound (depthLimit - 3))) }
    else if key = utf8 "parameters" then
      return { fields with
        parameters := ← readOnce fields.parameters (readParameterBody bound (depthLimit - 2)) }
    else
      skip bound (depthLimit - 1)
      return fields) {}
  return {
    ids := ← need fields.ids
    collections := ← need fields.collections
    parameters := ← need fields.parameters }

/-- The body at the front of a byte string, and the bytes after it. -/
def FrameBody.read (bytes : Bytes) : Except Failure (FrameBody × Bytes) :=
  readFrameBody (bytes.length + 1) bytes

end EventModel.Wire
