import RtRuntime.ByteRecords
import RtRuntime.RateDispatch

/-!
# The artifact codecs

`snapshot_codec.cpp`: checkpoints and input logs as bytes.  An encoder writes its fields over a
block of zeros in the caller's buffer; a parser loads them at the same offsets and checks them,
and a cursor walks the records of a parsed artifact again.  The provider of an encoder's states is
the list of what it hands out.
-/

namespace RtRuntime

/-! ## Identifiers -/

/-- `replay_identifier_capacity`. -/
def identifierCapacity : ℕ := 64

def identifierCharacter (value : UInt8) : Bool :=
  (value ≥ 'a'.toUInt8 && value ≤ 'z'.toUInt8) ||
    (value ≥ 'A'.toUInt8 && value ≤ 'Z'.toUInt8) ||
    (value ≥ '0'.toUInt8 && value ≤ '9'.toUInt8) ||
    value == '.'.toUInt8 || value == '_'.toUInt8 || value == ':'.toUInt8 ||
    value == '/'.toUInt8 || value == '@'.toUInt8 || value == '-'.toUInt8

/-- `valid_identifier`, on the text of an identifier. -/
def validIdentifier (value : List UInt8) : Bool :=
  !value.isEmpty && value.length < identifierCapacity && value.all identifierCharacter

/-- `std::array<char, replay_identifier_capacity>`. -/
@[ext]
structure Identifier where
  bytes : List UInt8
  length_eq : bytes.length = identifierCapacity
  deriving DecidableEq, Repr

/-- `identifier_view`: the text before the first zero byte, or all bytes without one. -/
def Identifier.view (identifier : Identifier) : List UInt8 :=
  identifier.bytes.takeWhile (· ≠ 0)

/-- The bytes after the terminator are zero. -/
def Identifier.padded (identifier : Identifier) : Bool :=
  (identifier.bytes.drop (identifier.view.length + 1)).all (· = 0)

/-- The loop of `fixed_identifier` and `fixed_name`: the length of a text that ends before the
end of its field and is followed by zeros only. -/
def fixedLength (field : List UInt8) : Option ℕ :=
  let length := (field.takeWhile (· ≠ 0)).length
  if (field.take length).all identifierCharacter ∧ length ≠ 0 ∧ length ≠ field.length ∧
      (field.drop (length + 1)).all (· = 0) then
    some length
  else none

/-- `fixed_identifier`. -/
def fixedIdentifier (bytes : List UInt8) (offset : ℕ) : Option Identifier :=
  if fits : offset + identifierCapacity ≤ bytes.length then
    if (fixedLength (slice bytes offset identifierCapacity)).isSome then
      some ⟨slice bytes offset identifierCapacity, length_slice fits⟩
    else none
  else none

/-- `fixed_name`. -/
def fixedName (bytes : List UInt8) (offset : ℕ) : Option Span :=
  if offset + identifierCapacity ≤ bytes.length then
    (fixedLength (slice bytes offset identifierCapacity)).map (Span.mk offset)
  else none

/-- `write_identifier` of a text. -/
def writeName (output : List UInt8) (offset : ℕ) (value : List UInt8) : List UInt8 :=
  overwrite (overwrite output offset (List.replicate identifierCapacity 0)) offset value

/-- `write_identifier` of an array: all its bytes are copied. -/
def writeIdentifier (output : List UInt8) (offset : ℕ) (value : Identifier) : List UInt8 :=
  overwrite output offset value.bytes

/-! ## Checksums and sizes -/

def fnvOffset : UInt64 := 14695981039346656037

def fnvPrime : UInt64 := 1099511628211

/-- `artifact_checksum`. -/
def artifactChecksum (bytes : List UInt8) : UInt64 :=
  bytes.foldl (fun hash value => (hash ^^^ value.toUInt64) * fnvPrime) fnvOffset

/-- `checksum_excluding`: the bytes of the excluded field count as zeros. -/
def checksumExcluding (bytes : List UInt8) (excludedOffset excludedSize : ℕ) : UInt64 :=
  artifactChecksum (overwrite bytes excludedOffset (List.replicate excludedSize 0))

/-- `checked_artifact_add`. -/
def checkedArtifactAdd (left right : ℕ) : Option ℕ := checkedAdd right left

/-- `checked_artifact_multiply`. -/
def checkedArtifactMultiply (left right : ℕ) : Option ℕ := checkedMultiply left right

def artifactAbsoluteMaxBytes : ℕ := 2 ^ 30

def artifactAbsoluteMaxRecords : ℕ := 2 ^ 20

/-- The number a tier is stored as. -/
def DeterminismTier.code : DeterminismTier → UInt32
  | .unspecified => 0
  | .scheduleIndependent => 1
  | .reproducibleBuild => 2
  | .portableDeterministic => 3
  | .unknown code => code.toUInt32

/-- The cast from a stored number. -/
def DeterminismTier.ofCode (code : UInt32) : DeterminismTier :=
  if code = 0 then .unspecified
  else if code = 1 then .scheduleIndependent
  else if code = 2 then .reproducibleBuild
  else if code = 3 then .portableDeterministic
  else .unknown code.toUInt8

def validTier (tier : UInt32) : Bool := tier ≤ 3

def versionMajor : UInt32 := 1

def versionMinor : UInt32 := 2

def versionPatch : UInt32 := 1

/-- `ArtifactWriteResult`. -/
structure ArtifactWriteResult where
  requiredBytes : ℕ := 0
  bytesWritten : ℕ := 0
  checksum : UInt64 := 0
  deriving DecidableEq, Repr

/-- What an encoder returns, with the caller's buffer afterwards. -/
structure ArtifactWrite where
  status : Status
  result : ArtifactWriteResult := {}
  output : List UInt8
  deriving DecidableEq, Repr

/-- The bytes an encoder has produced. -/
def ArtifactWrite.artifact (write : ArtifactWrite) : List UInt8 :=
  write.output.take write.result.bytesWritten

/-- A value that a parser needs; without it the artifact is invalid. -/
def need {α : Type} (x : Option α) : Except Status α := orReject x .invalidArtifact

/-! ## Checkpoints -/

def checkpointHeaderSize : ℕ := 256

def checkpointRecordHeaderSize : ℕ := 88

def checkpointChecksumOffset : ℕ := 112

/-- `RTFWCP1`. -/
def checkpointMagic : List UInt8 := [82, 84, 70, 87, 67, 80, 49, 0]

def checkpointSchemaVersion : UInt32 := 1

structure CheckpointMetadata where
  schemaVersion : UInt32 := checkpointSchemaVersion
  runtimeVersionMajor : UInt32 := versionMajor
  runtimeVersionMinor : UInt32 := versionMinor
  runtimeVersionPatch : UInt32 := versionPatch
  determinismTier : DeterminismTier := .unspecified
  configId : UInt64 := 0
  replayId : UInt64 := 0
  graphId : UInt64 := 0
  stateSchemaId : UInt64 := 0
  checkpointFrameIndex : UInt64 := 0
  statePayloadBytes : UInt64 := 0
  totalBytes : UInt64 := 0
  stateHash : UInt64 := 0
  artifactChecksum : UInt64 := 0
  stateCount : UInt32 := 0
  buildId : Identifier
  workloadId : Identifier
  deriving DecidableEq, Repr

/-- `StateWriteView`. -/
structure StateRecord where
  name : List UInt8
  schemaVersion : UInt32
  payload : List UInt8
  deriving DecidableEq, Repr

/-- The checks on one state. -/
def StateRecord.valid (state : StateRecord) : Bool :=
  validIdentifier state.name && state.schemaVersion ≠ 0 && !state.payload.isEmpty

/-- The first pass over the states: each is valid, and the payload bytes are added up. -/
def countPayloads : List StateRecord → ℕ → Option ℕ
  | [], total => some total
  | state :: states, total =>
    if state.valid then
      (checkedArtifactAdd total state.payload.length).bind (countPayloads states)
    else none

/-- The size of an artifact with `count` records. -/
def requiredBytes (headerSize recordHeaderSize count payloadBytes : ℕ) : Option ℕ := do
  let recordBytes ← checkedArtifactMultiply count recordHeaderSize
  let required ← checkedArtifactAdd headerSize recordBytes
  checkedArtifactAdd required payloadBytes

/-- The stores into the header, the two hashes apart. -/
def storeCheckpointHeader (metadata : CheckpointMetadata) (stateCount payloadBytes required : ℕ)
    (artifact : List UInt8) : List UInt8 :=
  let artifact := overwrite artifact 0 checkpointMagic
  let artifact := storeU32 artifact 8 checkpointSchemaVersion
  let artifact := storeU32 artifact 12 (UInt32.ofNat checkpointHeaderSize)
  let artifact := storeU32 artifact 16 metadata.runtimeVersionMajor
  let artifact := storeU32 artifact 20 metadata.runtimeVersionMinor
  let artifact := storeU32 artifact 24 metadata.runtimeVersionPatch
  let artifact := storeU32 artifact 28 metadata.determinismTier.code
  let artifact := storeU32 artifact 36 (UInt32.ofNat stateCount)
  let artifact := storeU32 artifact 40 (UInt32.ofNat checkpointRecordHeaderSize)
  let artifact := storeU64 artifact 48 metadata.configId
  let artifact := storeU64 artifact 56 metadata.replayId
  let artifact := storeU64 artifact 64 metadata.graphId
  let artifact := storeU64 artifact 72 metadata.stateSchemaId
  let artifact := storeU64 artifact 80 metadata.checkpointFrameIndex
  let artifact := storeU64 artifact 88 (UInt64.ofNat payloadBytes)
  let artifact := storeU64 artifact 96 (UInt64.ofNat required)
  let artifact := writeIdentifier artifact 120 metadata.buildId
  writeIdentifier artifact 184 metadata.workloadId

variable (artifact : List UInt8)

/-- One turn of the second pass over the states. -/
def storeState (offset : ℕ) (state : StateRecord) : List UInt8 :=
  let artifact := writeName artifact offset state.name
  let artifact := storeU32 artifact (offset + 64) state.schemaVersion
  let artifact := storeU64 artifact (offset + 72) (UInt64.ofNat state.payload.length)
  let artifact := storeU64 artifact (offset + 80) (artifactChecksum state.payload)
  overwrite artifact (offset + 88) state.payload

/-- The bytes of a record: its header and its payload. -/
def StateRecord.size (state : StateRecord) : ℕ :=
  checkpointRecordHeaderSize + state.payload.length

/-- The second pass over the states. -/
def storeStates : List StateRecord → ℕ → List UInt8 → List UInt8 :=
  storeRecords StateRecord.size storeState

/-- The two hashes, last. -/
def sealCheckpoint : List UInt8 :=
  let artifact := storeU64 artifact 104 (artifactChecksum (artifact.drop checkpointHeaderSize))
  storeU64 artifact checkpointChecksumOffset (checksumExcluding artifact checkpointChecksumOffset 8)

variable (metadata : CheckpointMetadata)

/-- The artifact of `encode_checkpoint_artifact`, once its size is known. -/
def checkpointArtifact (states : List StateRecord)
    (payloadBytes required : ℕ) : List UInt8 :=
  sealCheckpoint (storeStates states checkpointHeaderSize
    (storeCheckpointHeader metadata states.length payloadBytes required
      (List.replicate required 0)))

/-- `encode_checkpoint_artifact`. -/
def encodeCheckpointArtifact (states : List StateRecord)
    (maxBytes : ℕ) (output : List UInt8) : ArtifactWrite :=
  if states.length > artifactAbsoluteMaxRecords ∨ states.length > 2 ^ 32 - 1 ∨
      maxBytes > artifactAbsoluteMaxBytes ∨ maxBytes < checkpointHeaderSize ∨
      ¬ validTier metadata.determinismTier.code ∨ ¬ validIdentifier metadata.buildId.view ∨
      ¬ validIdentifier metadata.workloadId.view then
    ⟨.invalidArgument, {}, output⟩
  else
    match countPayloads states 0 with
    | none => ⟨.invalidArgument, {}, output⟩
    | some payloadBytes =>
      match requiredBytes checkpointHeaderSize checkpointRecordHeaderSize states.length
          payloadBytes with
      | none => ⟨.capacityExceeded, {}, output⟩
      | some required =>
        if required > maxBytes ∨ output.length < required then
          ⟨.capacityExceeded, { requiredBytes := required }, output⟩
        else
          let artifact := checkpointArtifact metadata states payloadBytes required
          ⟨.ok,
            { requiredBytes := required
              bytesWritten := required
              checksum := checksumExcluding artifact checkpointChecksumOffset 8 },
            artifact ++ output.drop required⟩

/-- The header of a record. -/
structure StateHeader where
  name : Span
  schemaVersion : UInt32
  reserved : UInt32
  payloadSize : UInt64
  payloadChecksum : UInt64

/-- The loads of a record's header. -/
def loadStateHeader (offset : ℕ) : Except Status StateHeader := do
  let name ← need (fixedName artifact offset)
  let schemaVersion ← need (loadU32 artifact (offset + 64))
  let reserved ← need (loadU32 artifact (offset + 68))
  let payloadSize ← need (loadU64 artifact (offset + 72))
  let payloadChecksum ← need (loadU64 artifact (offset + 80))
  return ⟨name, schemaVersion, reserved, payloadSize, payloadChecksum⟩

/-- One turn of the parser's loop over the records; it keeps the offset and the payload total. -/
def parseState (offset payloadTotal : ℕ) : Except Status (ℕ × ℕ) := do
  reject (artifact.length < offset + checkpointRecordHeaderSize) .invalidArtifact
  let header ← loadStateHeader artifact offset
  reject (header.schemaVersion = 0 ∨ header.reserved ≠ 0 ∨ header.payloadSize = 0) .invalidArtifact
  let offset := offset + checkpointRecordHeaderSize
  let size := header.payloadSize.toNat
  reject (size > artifact.length - offset) .invalidArtifact
  let payloadTotal ← need (checkedArtifactAdd payloadTotal size)
  reject (artifactChecksum (slice artifact offset size) ≠ header.payloadChecksum) .invalidArtifact
  return (offset + size, payloadTotal)

def parseStates (artifact : List UInt8) : ℕ → ℕ × ℕ → Except Status (ℕ × ℕ)
  | 0, position => .ok position
  | count + 1, position => do
    let position ← parseState artifact position.1 position.2
    parseStates artifact count position

/-- The header checks of `parse_checkpoint_artifact`. -/
def parseCheckpointHeader (maxBytes maxStates : ℕ) :
    Except Status CheckpointMetadata := do
  reject (maxBytes > artifactAbsoluteMaxBytes ∨ maxStates > artifactAbsoluteMaxRecords ∨
    artifact.length < checkpointHeaderSize ∨ artifact.length > maxBytes ∨
    slice artifact 0 8 ≠ checkpointMagic) .invalidArtifact
  let schema ← need (loadU32 artifact 8)
  let headerSize ← need (loadU32 artifact 12)
  let runtimeVersionMajor ← need (loadU32 artifact 16)
  let runtimeVersionMinor ← need (loadU32 artifact 20)
  let runtimeVersionPatch ← need (loadU32 artifact 24)
  let tier ← need (loadU32 artifact 28)
  let flags ← need (loadU32 artifact 32)
  let stateCount ← need (loadU32 artifact 36)
  let recordSize ← need (loadU32 artifact 40)
  let reserved ← need (loadU32 artifact 44)
  let configId ← need (loadU64 artifact 48)
  let replayId ← need (loadU64 artifact 56)
  let graphId ← need (loadU64 artifact 64)
  let stateSchemaId ← need (loadU64 artifact 72)
  let checkpointFrameIndex ← need (loadU64 artifact 80)
  let statePayloadBytes ← need (loadU64 artifact 88)
  let totalBytes ← need (loadU64 artifact 96)
  let stateHash ← need (loadU64 artifact 104)
  let artifactChecksum ← need (loadU64 artifact checkpointChecksumOffset)
  let buildId ← need (fixedIdentifier artifact 120)
  let workloadId ← need (fixedIdentifier artifact 184)
  reject (schema ≠ checkpointSchemaVersion ∨ headerSize ≠ UInt32.ofNat checkpointHeaderSize ∨
    recordSize ≠ UInt32.ofNat checkpointRecordHeaderSize ∨ flags ≠ 0 ∨ reserved ≠ 0 ∨
    ¬ (slice artifact 248 8).all (· = 0) ∨ ¬ validTier tier ∨ stateCount.toNat > maxStates ∨
    totalBytes.toNat ≠ artifact.length ∨ statePayloadBytes.toNat > maxBytes) .invalidArtifact
  return { schemaVersion := schema
           runtimeVersionMajor, runtimeVersionMinor, runtimeVersionPatch
           determinismTier := .ofCode tier
           configId, replayId, graphId, stateSchemaId, checkpointFrameIndex, statePayloadBytes
           totalBytes, stateHash, artifactChecksum, stateCount, buildId, workloadId }

/-- `parse_checkpoint_artifact`; a failed parse leaves default metadata, which is not kept here. -/
def parseCheckpointArtifact (maxBytes maxStates : ℕ) :
    Except Status CheckpointMetadata := do
  let metadata ← parseCheckpointHeader artifact maxBytes maxStates
  reject (checksumExcluding artifact checkpointChecksumOffset 8 ≠ metadata.artifactChecksum)
    .invalidArtifact
  let (offset, payloadTotal) ←
    parseStates artifact metadata.stateCount.toNat (checkpointHeaderSize, 0)
  reject (offset ≠ artifact.length ∨ payloadTotal ≠ metadata.statePayloadBytes.toNat ∨
    artifactChecksum (artifact.drop checkpointHeaderSize) ≠ metadata.stateHash) .invalidArtifact
  return metadata

structure CheckpointRecordView where
  name : Span
  schemaVersion : UInt32
  payload : Span
  deriving DecidableEq, Repr

structure CheckpointRecordCursor where
  offset : ℕ := checkpointHeaderSize
  index : ℕ := 0
  deriving DecidableEq, Repr

/-- `next_checkpoint_record`: the record if the call returns true, and the cursor after it. -/
def nextCheckpointRecord
    (cursor : CheckpointRecordCursor) : Option CheckpointRecordView × CheckpointRecordCursor :=
  if cursor.index ≥ metadata.stateCount.toNat ∨
      artifact.length < cursor.offset + checkpointRecordHeaderSize then
    (none, cursor)
  else
    match loadStateHeader artifact cursor.offset with
    | .error _ => (none, cursor)
    | .ok header =>
      if header.reserved ≠ 0 then (none, cursor)
      else
        let offset := cursor.offset + checkpointRecordHeaderSize
        let payload : Span := ⟨offset, header.payloadSize.toNat⟩
        if payload.size > artifact.length - offset then (none, { cursor with offset := offset })
        else
          (if artifactChecksum (payload.of artifact) = header.payloadChecksum then
              some ⟨header.name, header.schemaVersion, payload⟩
            else none,
            ⟨offset + payload.size, cursor.index + 1⟩)

/-- `count` calls of `next_checkpoint_record` that all return true. -/
def readCheckpointRecords :
    ℕ → CheckpointRecordCursor → Option (List CheckpointRecordView × CheckpointRecordCursor) :=
  readCount (nextCheckpointRecord artifact metadata)

/-- The state that a record shows. -/
def CheckpointRecordView.state (view : CheckpointRecordView) (artifact : List UInt8) :
    StateRecord :=
  ⟨view.name.of artifact, view.schemaVersion, view.payload.of artifact⟩

/-! ## Input logs -/

def inputLogHeaderSize : ℕ := 192

def inputLogRecordHeaderSize : ℕ := 48

def inputLogChecksumOffset : ℕ := 80

/-- `RTFWIL1`. -/
def inputLogMagic : List UInt8 := [82, 84, 70, 87, 73, 76, 49, 0]

def inputLogSchemaVersion : UInt32 := 1

/-- `HostFrameContext` with all its fields; `delta` counts nanoseconds. -/
structure ReplayFrame where
  frameIndex : UInt64 := 0
  delta : Int64 := 0
  deadlineNs : Option UInt64 := none
  nominalReleaseNs : Option UInt64 := none
  deriving DecidableEq, Repr

structure ReplayInputRecord where
  frame : ReplayFrame := {}
  inputType : UInt32 := 0
  payload : List UInt8 := []
  deriving DecidableEq, Repr

structure InputLogMetadata where
  schemaVersion : UInt32 := inputLogSchemaVersion
  runtimeVersionMajor : UInt32 := versionMajor
  runtimeVersionMinor : UInt32 := versionMinor
  runtimeVersionPatch : UInt32 := versionPatch
  determinismTier : DeterminismTier := .unspecified
  replayId : UInt64 := 0
  stateSchemaId : UInt64 := 0
  payloadBytes : UInt64 := 0
  totalBytes : UInt64 := 0
  artifactChecksum : UInt64 := 0
  firstFrameIndex : UInt64 := 0
  lastFrameIndex : UInt64 := 0
  recordCount : UInt32 := 0
  workloadId : Identifier
  deriving DecidableEq, Repr

/-- The first pass over the records: `previous` is the last frame index. -/
def countInputs : List ReplayInputRecord → Option UInt64 → ℕ → Option ℕ
  | [], _, total => some total
  | record :: records, previous, total =>
    if record.frame.delta < 0 ∨ record.payload.length > 2 ^ 32 - 1 ∨
        previous.any (record.frame.frameIndex ≤ ·) then
      none
    else
      (checkedArtifactAdd total record.payload.length).bind
        (countInputs records (some record.frame.frameIndex))

/-- The stores into the header, the checksum apart. -/
def storeInputLogHeader (metadata : InputLogMetadata) (records : List ReplayInputRecord)
    (payloadBytes required : ℕ) (artifact : List UInt8) : List UInt8 :=
  let artifact := overwrite artifact 0 inputLogMagic
  let artifact := storeU32 artifact 8 inputLogSchemaVersion
  let artifact := storeU32 artifact 12 (UInt32.ofNat inputLogHeaderSize)
  let artifact := storeU32 artifact 16 metadata.runtimeVersionMajor
  let artifact := storeU32 artifact 20 metadata.runtimeVersionMinor
  let artifact := storeU32 artifact 24 metadata.runtimeVersionPatch
  let artifact := storeU32 artifact 28 metadata.determinismTier.code
  let artifact := storeU32 artifact 36 (UInt32.ofNat records.length)
  let artifact := storeU32 artifact 40 (UInt32.ofNat inputLogRecordHeaderSize)
  let artifact := storeU64 artifact 48 metadata.replayId
  let artifact := storeU64 artifact 56 metadata.stateSchemaId
  let artifact := storeU64 artifact 64 (UInt64.ofNat payloadBytes)
  let artifact := storeU64 artifact 72 (UInt64.ofNat required)
  let artifact := (records.head?.map fun record =>
    storeU64 artifact 88 record.frame.frameIndex).getD artifact
  let artifact := (records.getLast?.map fun record =>
    storeU64 artifact 96 record.frame.frameIndex).getD artifact
  writeIdentifier artifact 104 metadata.workloadId

/-- One turn of the second pass over the records. -/
def storeInput (offset : ℕ) (record : ReplayInputRecord) : List UInt8 :=
  let artifact := storeU64 artifact offset record.frame.frameIndex
  let artifact := storeU64 artifact (offset + 8) record.frame.delta.toUInt64
  let artifact := storeU64 artifact (offset + 16) (record.frame.deadlineNs.getD 0)
  let artifact := storeU32 artifact (offset + 24) record.inputType
  let artifact := storeU32 artifact (offset + 28) (UInt32.ofNat record.payload.length)
  let artifact := storeU32 artifact (offset + 32) (if record.frame.deadlineNs.isSome then 1 else 0)
  let artifact := storeU64 artifact (offset + 40) (artifactChecksum record.payload)
  overwrite artifact (offset + 48) record.payload

/-- The bytes of a record: its header and its payload. -/
def ReplayInputRecord.size (record : ReplayInputRecord) : ℕ :=
  inputLogRecordHeaderSize + record.payload.length

/-- The second pass over the records. -/
def storeInputs : List ReplayInputRecord → ℕ → List UInt8 → List UInt8 :=
  storeRecords ReplayInputRecord.size storeInput

/-- The checksum, last. -/
def sealInputLog : List UInt8 :=
  storeU64 artifact inputLogChecksumOffset (checksumExcluding artifact inputLogChecksumOffset 8)

/-- The artifact of `encode_input_log_artifact`, once its size is known. -/
def inputLogArtifact (metadata : InputLogMetadata) (records : List ReplayInputRecord)
    (payloadBytes required : ℕ) : List UInt8 :=
  sealInputLog (storeInputs records inputLogHeaderSize
    (storeInputLogHeader metadata records payloadBytes required (List.replicate required 0)))

/-- `encode_input_log_artifact`. -/
def encodeInputLogArtifact (metadata : InputLogMetadata) (records : List ReplayInputRecord)
    (maxRecords maxBytes : ℕ) (output : List UInt8) : ArtifactWrite :=
  if records.length > maxRecords ∨ records.length > artifactAbsoluteMaxRecords ∨
      records.length > 2 ^ 32 - 1 ∨ maxRecords > artifactAbsoluteMaxRecords ∨
      maxBytes > artifactAbsoluteMaxBytes ∨ maxBytes < inputLogHeaderSize ∨
      ¬ validTier metadata.determinismTier.code ∨ ¬ validIdentifier metadata.workloadId.view then
    ⟨.invalidArgument, {}, output⟩
  else
    match countInputs records none 0 with
    | none => ⟨.invalidArgument, {}, output⟩
    | some payloadBytes =>
      match requiredBytes inputLogHeaderSize inputLogRecordHeaderSize records.length
          payloadBytes with
      | none => ⟨.capacityExceeded, {}, output⟩
      | some required =>
        if required > maxBytes ∨ output.length < required then
          ⟨.capacityExceeded, { requiredBytes := required }, output⟩
        else
          let artifact := inputLogArtifact metadata records payloadBytes required
          ⟨.ok,
            { requiredBytes := required
              bytesWritten := required
              checksum := checksumExcluding artifact inputLogChecksumOffset 8 },
            artifact ++ output.drop required⟩

/-- The header of a record. -/
structure InputHeader where
  frameIndex : UInt64
  deltaNs : UInt64
  deadlineNs : UInt64
  inputType : UInt32
  payloadSize : UInt32
  flags : UInt32
  reserved : UInt32
  payloadChecksum : UInt64

/-- The loads of a record's header. -/
def loadInputHeader (offset : ℕ) : Except Status InputHeader := do
  let frameIndex ← need (loadU64 artifact offset)
  let deltaNs ← need (loadU64 artifact (offset + 8))
  let deadlineNs ← need (loadU64 artifact (offset + 16))
  let inputType ← need (loadU32 artifact (offset + 24))
  let payloadSize ← need (loadU32 artifact (offset + 28))
  let flags ← need (loadU32 artifact (offset + 32))
  let reserved ← need (loadU32 artifact (offset + 36))
  let payloadChecksum ← need (loadU64 artifact (offset + 40))
  return ⟨frameIndex, deltaNs, deadlineNs, inputType, payloadSize, flags, reserved, payloadChecksum⟩

/-- `std::chrono::nanoseconds::max().count()`. -/
def nanosecondsMax : UInt64 := 9223372036854775807

/-- The parser's position between two records. -/
structure InputLogPosition where
  offset : ℕ := inputLogHeaderSize
  payloadTotal : ℕ := 0
  previousFrame : UInt64 := 0

/-- One turn of the parser's loop over the records. -/
def parseInput (index : ℕ) (position : InputLogPosition) :
    Except Status InputLogPosition := do
  reject (artifact.length < position.offset + inputLogRecordHeaderSize) .invalidArtifact
  let header ← loadInputHeader artifact position.offset
  reject (header.deltaNs > nanosecondsMax ∨ header.flags &&& ~~~1 ≠ 0 ∨ header.reserved ≠ 0 ∨
    (header.flags &&& 1 = 0 ∧ header.deadlineNs ≠ 0) ∨
    (index ≠ 0 ∧ header.frameIndex ≤ position.previousFrame)) .invalidArtifact
  let offset := position.offset + inputLogRecordHeaderSize
  let size := header.payloadSize.toNat
  reject (size > artifact.length - offset) .invalidArtifact
  let payloadTotal ← need (checkedArtifactAdd position.payloadTotal size)
  reject (artifactChecksum (slice artifact offset size) ≠ header.payloadChecksum) .invalidArtifact
  return ⟨offset + size, payloadTotal, header.frameIndex⟩

/-- The parser's loop; `index` counts the records before it. -/
def parseInputs (artifact : List UInt8) : ℕ → ℕ → InputLogPosition → Except Status InputLogPosition
  | 0, _, position => .ok position
  | count + 1, index, position => do
    let position ← parseInput artifact index position
    parseInputs artifact count (index + 1) position

/-- The header checks of `parse_input_log_artifact`. -/
def parseInputLogHeader (maxBytes maxRecords : ℕ) :
    Except Status InputLogMetadata := do
  reject (maxBytes > artifactAbsoluteMaxBytes ∨ maxRecords > artifactAbsoluteMaxRecords ∨
    artifact.length < inputLogHeaderSize ∨ artifact.length > maxBytes ∨
    slice artifact 0 8 ≠ inputLogMagic) .invalidArtifact
  let schema ← need (loadU32 artifact 8)
  let headerSize ← need (loadU32 artifact 12)
  let runtimeVersionMajor ← need (loadU32 artifact 16)
  let runtimeVersionMinor ← need (loadU32 artifact 20)
  let runtimeVersionPatch ← need (loadU32 artifact 24)
  let tier ← need (loadU32 artifact 28)
  let flags ← need (loadU32 artifact 32)
  let recordCount ← need (loadU32 artifact 36)
  let recordSize ← need (loadU32 artifact 40)
  let reserved ← need (loadU32 artifact 44)
  let replayId ← need (loadU64 artifact 48)
  let stateSchemaId ← need (loadU64 artifact 56)
  let payloadBytes ← need (loadU64 artifact 64)
  let totalBytes ← need (loadU64 artifact 72)
  let artifactChecksum ← need (loadU64 artifact inputLogChecksumOffset)
  let firstFrameIndex ← need (loadU64 artifact 88)
  let lastFrameIndex ← need (loadU64 artifact 96)
  let workloadId ← need (fixedIdentifier artifact 104)
  reject (schema ≠ inputLogSchemaVersion ∨ headerSize ≠ UInt32.ofNat inputLogHeaderSize ∨
    recordSize ≠ UInt32.ofNat inputLogRecordHeaderSize ∨ flags ≠ 0 ∨ reserved ≠ 0 ∨
    ¬ (slice artifact 168 24).all (· = 0) ∨ ¬ validTier tier ∨ recordCount.toNat > maxRecords ∨
    totalBytes.toNat ≠ artifact.length ∨ payloadBytes.toNat > maxBytes) .invalidArtifact
  return { schemaVersion := schema
           runtimeVersionMajor, runtimeVersionMinor, runtimeVersionPatch
           determinismTier := .ofCode tier
           replayId, stateSchemaId, payloadBytes, totalBytes, artifactChecksum
           firstFrameIndex, lastFrameIndex, recordCount, workloadId }

/-- `parse_input_log_artifact`; a failed parse leaves default metadata, which is not kept here. -/
def parseInputLogArtifact (maxBytes maxRecords : ℕ) :
    Except Status InputLogMetadata := do
  let metadata ← parseInputLogHeader artifact maxBytes maxRecords
  reject (checksumExcluding artifact inputLogChecksumOffset 8 ≠ metadata.artifactChecksum)
    .invalidArtifact
  let position ← parseInputs artifact metadata.recordCount.toNat 0 {}
  reject (position.offset ≠ artifact.length ∨
    position.payloadTotal ≠ metadata.payloadBytes.toNat ∨
    (metadata.recordCount = 0 ∧
      (metadata.firstFrameIndex ≠ 0 ∨ metadata.lastFrameIndex ≠ 0)) ∨
    (metadata.recordCount ≠ 0 ∧ (metadata.firstFrameIndex > metadata.lastFrameIndex ∨
      position.previousFrame ≠ metadata.lastFrameIndex))) .invalidArtifact
  reject (metadata.recordCount ≠ 0 ∧
    loadU64 artifact inputLogHeaderSize ≠ some metadata.firstFrameIndex) .invalidArtifact
  return metadata

structure InputLogRecordView where
  frame : ReplayFrame
  inputType : UInt32
  payload : Span
  deriving DecidableEq, Repr

structure InputLogRecordCursor where
  offset : ℕ := inputLogHeaderSize
  index : ℕ := 0
  deriving DecidableEq, Repr

/-- `next_input_log_record`: the record if the call returns true, and the cursor after it. -/
def nextInputLogRecord (metadata : InputLogMetadata)
    (cursor : InputLogRecordCursor) : Option InputLogRecordView × InputLogRecordCursor :=
  if cursor.index ≥ metadata.recordCount.toNat ∨
      artifact.length < cursor.offset + inputLogRecordHeaderSize then
    (none, cursor)
  else
    match loadInputHeader artifact cursor.offset with
    | .error _ => (none, cursor)
    | .ok header =>
      if header.flags > 1 ∨ header.reserved ≠ 0 ∨ header.deltaNs > nanosecondsMax then
        (none, cursor)
      else
        let offset := cursor.offset + inputLogRecordHeaderSize
        let payload : Span := ⟨offset, header.payloadSize.toNat⟩
        if payload.size > artifact.length - offset then (none, { cursor with offset := offset })
        else
          (if artifactChecksum (payload.of artifact) = header.payloadChecksum then
              some
                { frame :=
                    { frameIndex := header.frameIndex
                      delta := header.deltaNs.toInt64
                      deadlineNs :=
                        if header.flags &&& 1 ≠ 0 then some header.deadlineNs else none }
                  inputType := header.inputType
                  payload := payload }
            else none,
            ⟨offset + payload.size, cursor.index + 1⟩)

/-- `count` calls of `next_input_log_record` that all return true. -/
def readInputLogRecords (metadata : InputLogMetadata) :
    ℕ → InputLogRecordCursor → Option (List InputLogRecordView × InputLogRecordCursor) :=
  readCount (nextInputLogRecord artifact metadata)

/-- The input that a record shows. -/
def InputLogRecordView.record (view : InputLogRecordView) (artifact : List UInt8) :
    ReplayInputRecord :=
  ⟨view.frame, view.inputType, view.payload.of artifact⟩

end RtRuntime
