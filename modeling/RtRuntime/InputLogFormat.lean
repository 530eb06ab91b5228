import RtRuntime.ArtifactFields

/-!
# The input log format

`InputLogFormat` says field by field what the bytes of an input log are.  As for checkpoints, there
is one such byte string for given metadata and records, and the encoder produces it.  The nominal
release of a frame has no field.
-/

namespace RtRuntime

/-! ## Records -/

/-- The record of an input stands at `offset`. -/
structure InputAt (artifact : List UInt8) (offset : ℕ) (record : ReplayInputRecord) : Prop where
  fits : offset + record.size ≤ artifact.length
  frameIndex : slice artifact offset 8 = leBytes 8 record.frame.frameIndex.toNat
  delta : slice artifact (offset + 8) 8 = leBytes 8 record.frame.delta.toUInt64.toNat
  deadlineNs : slice artifact (offset + 16) 8 = leBytes 8 (record.frame.deadlineNs.getD 0).toNat
  inputType : slice artifact (offset + 24) 4 = leBytes 4 record.inputType.toNat
  payloadSize : slice artifact (offset + 28) 4 = leBytes 4 record.payload.length
  flags : slice artifact (offset + 32) 4 =
    leBytes 4 (if record.frame.deadlineNs.isSome then (1 : UInt32) else 0).toNat
  reserved : slice artifact (offset + 36) 4 = leBytes 4 0
  payloadChecksum :
    slice artifact (offset + 40) 8 = leBytes 8 (artifactChecksum record.payload).toNat
  payload : slice artifact (offset + 48) record.payload.length = record.payload

section Records

variable {artifact left right : List UInt8} {offset : ℕ} {record : ReplayInputRecord}

theorem InputAt.slice_eq (hl : InputAt left offset record) (hr : InputAt right offset record) :
    slice left offset record.size = slice right offset record.size := by
  have same : SameFields left right offset [8, 8, 8, 4, 4, 4, 4, 8, record.payload.length] :=
    ⟨hl.frameIndex.trans hr.frameIndex.symm, hl.delta.trans hr.delta.symm,
      hl.deadlineNs.trans hr.deadlineNs.symm, hl.inputType.trans hr.inputType.symm,
      hl.payloadSize.trans hr.payloadSize.symm, hl.flags.trans hr.flags.symm,
      hl.reserved.trans hr.reserved.symm, hl.payloadChecksum.trans hr.payloadChecksum.symm,
      hl.payload.trans hr.payload.symm, trivial⟩
  have sum : [8, 8, 8, 4, 4, 4, 4, 8, record.payload.length].sum = record.size := by
    simp only [List.sum_cons, List.sum_nil, ReplayInputRecord.size, inputLogRecordHeaderSize]
    omega
  simpa only [sum] using same.slice_eq

theorem InputAt.of_slice_eq (lengths : left.length = right.length)
    (same : ∀ place count, offset ≤ place → place + count ≤ offset + record.size →
      slice left place count = slice right place count)
    (at_ : InputAt right offset record) : InputAt left offset record := by
  unfold ReplayInputRecord.size inputLogRecordHeaderSize at same
  constructor
  case fits => exact lengths ▸ at_.fits
  case frameIndex => rw [same _ _ (by omega) (by omega), at_.frameIndex]
  case delta => rw [same _ _ (by omega) (by omega), at_.delta]
  case deadlineNs => rw [same _ _ (by omega) (by omega), at_.deadlineNs]
  case inputType => rw [same _ _ (by omega) (by omega), at_.inputType]
  case payloadSize => rw [same _ _ (by omega) (by omega), at_.payloadSize]
  case flags => rw [same _ _ (by omega) (by omega), at_.flags]
  case reserved => rw [same _ _ (by omega) (by omega), at_.reserved]
  case payloadChecksum => rw [same _ _ (by omega) (by omega), at_.payloadChecksum]
  case payload => rw [same _ _ (by omega) (by omega), at_.payload]

/-- The records of inputs. -/
def inputFormat : RecordFormat UInt8 ReplayInputRecord where
  size := ReplayInputRecord.size
  At := InputAt
  fits at_ := at_.fits
  slice_eq hl hr := hl.slice_eq hr
  of_slice_eq lengths same at_ := at_.of_slice_eq lengths same

/-- The check on one record by itself. -/
def ReplayInputRecord.Valid (record : ReplayInputRecord) : Prop :=
  0 ≤ record.frame.delta ∧ record.payload.length < 2 ^ 32

@[simp] theorem length_storeInput (artifact : List UInt8) (offset : ℕ)
    (record : ReplayInputRecord) :
    (storeInput artifact offset record).length = artifact.length := by
  simp [storeInput]

theorem slice_storeInput_of_disjoint {place count : ℕ}
    (apart : offset + count ≤ place ∨ place + record.size ≤ offset) :
    slice (storeInput artifact place record) offset count = slice artifact offset count := by
  unfold ReplayInputRecord.size inputLogRecordHeaderSize at apart
  rw [storeInput, slice_overwrite_of_disjoint (by omega)]
  simp (disch := omega) only [slice_storeU32_of_disjoint, slice_storeU64_of_disjoint]

theorem inputAt_storeInput (small : record.payload.length < 2 ^ 32)
    (fits : offset + record.size ≤ artifact.length)
    (zeros : slice artifact (offset + 36) 4 = leBytes 4 0) :
    InputAt (storeInput artifact offset record) offset record := by
  have room := fits
  unfold ReplayInputRecord.size inputLogRecordHeaderSize at room
  constructor
  case fits => simpa using fits
  case payload => exact slice_overwrite _ _ _ (by simp; omega)
  all_goals
    rw [storeInput, slice_overwrite_of_disjoint (by omega)]
    simp (disch := first | omega | (simp; omega)) only [slice_storeU32, slice_storeU64,
      slice_storeU32_of_disjoint, slice_storeU64_of_disjoint, UInt32.toNat_ofNat_of_lt' small, zeros]

theorem inputWriter : RecordWriter inputFormat 0 ReplayInputRecord.Valid storeInput where
  length_eq := length_storeInput
  apart _ outside := slice_storeInput_of_disjoint outside
  stands := by
    intro artifact offset record valid fits zeros
    refine inputAt_storeInput valid.2 fits ?_
    rw [leBytes_zero]
    refine zeros _ _ (by omega) ?_
    simp only [inputFormat, ReplayInputRecord.size, inputLogRecordHeaderSize]
    omega

@[simp] theorem length_storeInputs (records : List ReplayInputRecord) (offset : ℕ)
    (artifact : List UInt8) : (storeInputs records offset artifact).length = artifact.length :=
  inputWriter.length_storeRecords

/-- What a log keeps of a record: all but the nominal release. -/
def ReplayInputRecord.logged (record : ReplayInputRecord) : ReplayInputRecord :=
  { record with frame := { record.frame with nominalReleaseNs := none } }

theorem InputAt.logged (at_ : InputAt artifact offset record) :
    InputAt artifact offset record.logged := by
  obtain ⟨fits, frameIndex, delta, deadlineNs, inputType, payloadSize, flags, reserved,
    payloadChecksum, payload⟩ := at_
  exact ⟨fits, frameIndex, delta, deadlineNs, inputType, payloadSize, flags, reserved,
    payloadChecksum, payload⟩

theorem seqAt_logged {records : List ReplayInputRecord}
    (stand : inputFormat.SeqAt artifact offset records) :
    inputFormat.SeqAt artifact offset (records.map ReplayInputRecord.logged) := by
  induction records generalizing offset with
  | nil => exact stand
  | cons record records ih => exact ⟨stand.1.logged, ih stand.2⟩

end Records

/-! ## The order of frames -/

/-- The frame indexes increase, and the first is above `previous` if there is one. -/
def FramesAfter : Option UInt64 → List ReplayInputRecord → Prop
  | _, [] => True
  | previous, record :: records =>
    (∀ frame ∈ previous, frame < record.frame.frameIndex) ∧
      FramesAfter (some record.frame.frameIndex) records

section Frames

variable {previous : Option UInt64} {records : List ReplayInputRecord}

theorem FramesAfter.lt {frame : UInt64} (after : FramesAfter (some frame) records) :
    ∀ record ∈ records, frame < record.frame.frameIndex := by
  induction records generalizing frame with
  | nil => simp
  | cons record records ih =>
    have first : frame < record.frame.frameIndex := after.1 frame rfl
    intro later member
    rcases List.mem_cons.mp member with rfl | member
    · exact first
    · exact UInt64.lt_trans first (ih after.2 later member)

theorem FramesAfter.pairwise (after : FramesAfter previous records) :
    records.Pairwise (·.frame.frameIndex < ·.frame.frameIndex) := by
  induction records generalizing previous with
  | nil => exact .nil
  | cons record records ih => exact .cons after.2.lt (ih after.2)

theorem FramesAfter.logged (after : FramesAfter previous records) :
    FramesAfter previous (records.map ReplayInputRecord.logged) := by
  induction records generalizing previous with
  | nil => trivial
  | cons record records ih => exact ⟨after.1, ih after.2⟩

end Frames

/-- The first frame of a log, zero without one. -/
def firstFrame (records : List ReplayInputRecord) : UInt64 :=
  (records.head?.map (·.frame.frameIndex)).getD 0

/-- The last frame of a log, or that before it. -/
def lastFrame (previous : UInt64) (records : List ReplayInputRecord) : UInt64 :=
  (records.getLast?.map (·.frame.frameIndex)).getD previous

theorem lastFrame_cons (previous : UInt64) (record : ReplayInputRecord)
    (records : List ReplayInputRecord) :
    lastFrame previous (record :: records) = lastFrame record.frame.frameIndex records := by
  cases records with
  | nil => rfl
  | cons next records =>
    rw [lastFrame, lastFrame, List.getLast?_cons_cons]
    cases last : (next :: records).getLast? with
    | none => simp at last
    | some record => rfl

/-! ## The whole artifact -/

/-- The payload bytes of all records. -/
def inputTotal (records : List ReplayInputRecord) : ℕ := (records.map (·.payload.length)).sum

/-- The header of an input log, field by field. -/
structure InputLogHeaderAt (artifact : List UInt8) (metadata : InputLogMetadata) : Prop where
  magic : slice artifact 0 8 = inputLogMagic
  schema : slice artifact 8 4 = leBytes 4 metadata.schemaVersion.toNat
  headerSize : slice artifact 12 4 = leBytes 4 (UInt32.ofNat inputLogHeaderSize).toNat
  runtimeVersionMajor : slice artifact 16 4 = leBytes 4 metadata.runtimeVersionMajor.toNat
  runtimeVersionMinor : slice artifact 20 4 = leBytes 4 metadata.runtimeVersionMinor.toNat
  runtimeVersionPatch : slice artifact 24 4 = leBytes 4 metadata.runtimeVersionPatch.toNat
  tier : slice artifact 28 4 = leBytes 4 metadata.determinismTier.code.toNat
  flags : slice artifact 32 4 = leBytes 4 0
  recordCount : slice artifact 36 4 = leBytes 4 metadata.recordCount.toNat
  recordSize : slice artifact 40 4 = leBytes 4 (UInt32.ofNat inputLogRecordHeaderSize).toNat
  reserved : slice artifact 44 4 = leBytes 4 0
  replayId : slice artifact 48 8 = leBytes 8 metadata.replayId.toNat
  stateSchemaId : slice artifact 56 8 = leBytes 8 metadata.stateSchemaId.toNat
  payloadBytes : slice artifact 64 8 = leBytes 8 metadata.payloadBytes.toNat
  totalBytes : slice artifact 72 8 = leBytes 8 metadata.totalBytes.toNat
  checksum : slice artifact 80 8 = leBytes 8 metadata.artifactChecksum.toNat
  firstFrameIndex : slice artifact 88 8 = leBytes 8 metadata.firstFrameIndex.toNat
  lastFrameIndex : slice artifact 96 8 = leBytes 8 metadata.lastFrameIndex.toNat
  workloadId : slice artifact 104 64 = metadata.workloadId.bytes
  padding : slice artifact 168 24 = leBytes 24 0

/-- The metadata of an artifact with these records: what the caller chooses is kept, the rest is
computed. -/
def InputLogMetadata.describing (metadata : InputLogMetadata) (artifact : List UInt8)
    (records : List ReplayInputRecord) : InputLogMetadata :=
  { metadata with
    schemaVersion := inputLogSchemaVersion
    determinismTier := .ofCode metadata.determinismTier.code
    payloadBytes := UInt64.ofNat (inputTotal records)
    totalBytes := UInt64.ofNat artifact.length
    artifactChecksum := checksumExcluding artifact inputLogChecksumOffset 8
    firstFrameIndex := firstFrame records
    lastFrameIndex := lastFrame 0 records
    recordCount := UInt32.ofNat records.length }

/-- The bytes of an input log. -/
structure InputLogFormat (artifact : List UInt8) (metadata : InputLogMetadata)
    (records : List ReplayInputRecord) : Prop where
  header : InputLogHeaderAt artifact (metadata.describing artifact records)
  records : inputFormat.SeqAt artifact inputLogHeaderSize records

namespace InputLogFormat

variable {left right : List UInt8} {metadata : InputLogMetadata}
  {records : List ReplayInputRecord}

theorem length_eq (format : InputLogFormat left metadata records) :
    left.length = inputLogHeaderSize + (records.map ReplayInputRecord.size).sum :=
  format.records.length_eq

/-- Metadata and records determine the bytes. -/
theorem unique (hl : InputLogFormat left metadata records)
    (hr : InputLogFormat right metadata records) : left = right := by
  have lengths : left.length = right.length := hl.length_eq.trans hr.length_eq.symm
  have tails : left.drop inputLogHeaderSize = right.drop inputLogHeaderSize :=
    hl.records.drop_eq hr.records
  have room : 192 ≤ left.length := by
    rw [hl.length_eq, inputLogHeaderSize]
    omega
  have l := hl.header
  have r := hr.header
  have total := l.totalBytes
  simp only [InputLogMetadata.describing, lengths] at total
  have before : SameFields left right 0 [8, 4, 4, 4, 4, 4, 4, 4, 4, 4, 4, 8, 8, 8, 8] :=
    ⟨l.magic.trans r.magic.symm, l.schema.trans r.schema.symm, l.headerSize.trans r.headerSize.symm,
      l.runtimeVersionMajor.trans r.runtimeVersionMajor.symm,
      l.runtimeVersionMinor.trans r.runtimeVersionMinor.symm,
      l.runtimeVersionPatch.trans r.runtimeVersionPatch.symm, l.tier.trans r.tier.symm,
      l.flags.trans r.flags.symm, l.recordCount.trans r.recordCount.symm,
      l.recordSize.trans r.recordSize.symm, l.reserved.trans r.reserved.symm,
      l.replayId.trans r.replayId.symm, l.stateSchemaId.trans r.stateSchemaId.symm,
      l.payloadBytes.trans r.payloadBytes.symm, total.trans r.totalBytes.symm, trivial⟩
  have after : SameFields left right 88 [8, 8, 64, 24] :=
    ⟨l.firstFrameIndex.trans r.firstFrameIndex.symm, l.lastFrameIndex.trans r.lastFrameIndex.symm,
      l.workloadId.trans r.workloadId.symm, l.padding.trans r.padding.symm, trivial⟩
  refine eq_of_checksum before.slice_eq ?_ (show 80 + 8 ≤ left.length by omega)
    (show 80 + 8 ≤ right.length by omega) l.checksum r.checksum
  rw [drop_eq_slice_append left _ 104, drop_eq_slice_append right _ 104]
  exact congrArg₂ (· ++ ·) after.slice_eq tails

/-- The nominal releases do not show in the bytes. -/
theorem logged (format : InputLogFormat left metadata records) :
    InputLogFormat left metadata (records.map ReplayInputRecord.logged) := by
  have same : metadata.describing left (records.map ReplayInputRecord.logged) =
      metadata.describing left records := by
    simp only [InputLogMetadata.describing, inputTotal, firstFrame, lastFrame, List.map_map,
      List.head?_map, List.getLast?_map, List.length_map, Option.map_map]
    rfl
  exact ⟨same ▸ format.header, seqAt_logged format.records⟩

end InputLogFormat

/-! ## The encoder -/

section OptionalStore

variable {ρ : Type} {bytes : List UInt8} {value : ρ → UInt64} {place offset count : ℕ}
  {o : Option ρ}

@[simp] theorem length_storeOption :
    ((o.map fun record => storeU64 bytes place (value record)).getD bytes).length =
      bytes.length := by
  cases o <;> simp

theorem slice_storeOption_of_disjoint (apart : offset + count ≤ place ∨ place + 8 ≤ offset) :
    slice ((o.map fun record => storeU64 bytes place (value record)).getD bytes) offset count =
      slice bytes offset count := by
  cases o with
  | none => rfl
  | some record => exact slice_storeU64_of_disjoint apart

/-- A store that may be left out, over zeros. -/
theorem slice_storeOption (fits : offset + 8 ≤ bytes.length)
    (zeros : slice bytes offset 8 = leBytes 8 0) :
    slice ((o.map fun record => storeU64 bytes offset (value record)).getD bytes) offset 8 =
      leBytes 8 ((o.map value).getD 0).toNat := by
  cases o with
  | none => exact zeros
  | some record => exact slice_storeU64 _ fits

end OptionalStore

section Encoder

variable {metadata : InputLogMetadata} {records : List ReplayInputRecord}

@[simp] theorem length_storeInputLogHeader (payloadBytes required : ℕ) (artifact : List UInt8) :
    (storeInputLogHeader metadata records payloadBytes required artifact).length =
      artifact.length := by
  simp [storeInputLogHeader]

@[simp] theorem length_sealInputLog (artifact : List UInt8) :
    (sealInputLog artifact).length = artifact.length := by
  simp [sealInputLog]

@[simp] theorem length_inputLogArtifact (payloadBytes required : ℕ) :
    (inputLogArtifact metadata records payloadBytes required).length = required := by
  simp [inputLogArtifact]

/-- The checksum is written last and elsewhere. -/
theorem slice_sealInputLog {artifact : List UInt8} {offset count : ℕ}
    (outside : offset + count ≤ 80 ∨ 88 ≤ offset) :
    slice (sealInputLog artifact) offset count = slice artifact offset count := by
  rw [sealInputLog, slice_storeU64_of_disjoint (by unfold inputLogChecksumOffset; omega)]

/-- The stores into the header stay in the header. -/
theorem slice_storeInputLogHeader_of_le {payloadBytes required offset count : ℕ}
    {artifact : List UInt8} (after : 192 ≤ offset) :
    slice (storeInputLogHeader metadata records payloadBytes required artifact) offset count =
      slice artifact offset count := by
  simp (disch := omega) only [storeInputLogHeader, slice_storeU32_of_disjoint,
    slice_storeU64_of_disjoint, slice_writeIdentifier_of_disjoint, slice_storeOption_of_disjoint]
  exact slice_overwrite_of_disjoint (.inr (by simp [inputLogMagic]; omega))

/-- The encoder's bytes are in the format. -/
theorem inputLogFormat_inputLogArtifact {payloadBytes required : ℕ}
    (valid : ∀ record ∈ records, record.Valid) (payload : payloadBytes = inputTotal records)
    (size : required = inputLogHeaderSize + (records.map ReplayInputRecord.size).sum)
    (tier : validTier metadata.determinismTier.code) :
    InputLogFormat (inputLogArtifact metadata records payloadBytes required) metadata records := by
  have room : 192 ≤ required := by
    rw [size, inputLogHeaderSize]
    omega
  have zeros : ∀ offset count, offset + count ≤ required →
      slice (List.replicate required (0 : UInt8)) offset count = leBytes count 0 := by
    intro offset count fits
    rw [slice_replicate 0 fits, leBytes_zero]
  have header : ∀ offset count, (offset + count ≤ 80 ∨ 88 ≤ offset) → offset + count ≤ 192 →
      slice (inputLogArtifact metadata records payloadBytes required) offset count =
        slice (storeInputLogHeader metadata records payloadBytes required
          (List.replicate required 0)) offset count := by
    intro offset count outside inside
    rw [inputLogArtifact, slice_sealInputLog outside]
    exact inputWriter.slice_storeRecords_of_le valid inside
  refine ⟨?_, ?stand⟩
  case stand =>
    refine RecordFormat.SeqAt.of_slice_eq (by simp [inputLogArtifact])
      (fun place count after => slice_sealInputLog (.inr ?_))
      (inputWriter.seqAt_storeRecords valid (by simpa [inputFormat] using size) ?_)
    · unfold inputLogHeaderSize at after
      omega
    · intro place count after inside
      unfold inputLogHeaderSize at after
      simp only [length_storeInputLogHeader, List.length_replicate] at inside
      rw [slice_storeInputLogHeader_of_le after, zeros _ _ inside, leBytes_zero]
  constructor
  case checksum =>
    change _ = leBytes 8 (checksumExcluding (inputLogArtifact metadata records payloadBytes
      required) inputLogChecksumOffset 8).toNat
    rw [inputLogArtifact, sealInputLog, checksumExcluding_storeU64]
    exact slice_storeU64 _ (by simp [inputLogChecksumOffset]; omega)
  all_goals
    rw [header _ _ (by omega) (by omega)]
    simp (disch := first | omega | (simp; omega)) only [storeInputLogHeader, slice_storeU32,
      slice_storeU64, slice_storeU32_of_disjoint, slice_storeU64_of_disjoint,
      slice_writeIdentifier, slice_writeIdentifier_of_disjoint, slice_storeOption_of_disjoint]
  case magic => exact slice_overwrite _ _ inputLogMagic (by simp [inputLogMagic]; omega)
  case tier => rw [InputLogMetadata.describing, DeterminismTier.code_ofCode tier]
  case payloadBytes => rw [payload, InputLogMetadata.describing]
  case totalBytes => rw [InputLogMetadata.describing, length_inputLogArtifact]
  case firstFrameIndex | lastFrameIndex =>
    refine slice_storeOption (by simp; omega) ?_
    simp (disch := omega) only [slice_storeU32_of_disjoint, slice_storeU64_of_disjoint,
      slice_storeOption_of_disjoint]
    rw [slice_overwrite_of_disjoint (by simp [inputLogMagic]), zeros _ _ (by omega)]
  case flags | reserved | padding =>
    rw [slice_overwrite_of_disjoint (by simp [inputLogMagic]), zeros _ _ (by omega)]
  all_goals rfl

end Encoder

end RtRuntime
