import RtRuntime.ArtifactFields

/-!
# The checkpoint format

`CheckpointFormat` says field by field what the bytes of a checkpoint are.  There is only one such
byte string for given metadata and states, and the encoder produces it.
-/

namespace RtRuntime

/-! ## Records -/

/-- The record of `state` stands at `offset`. -/
structure StateAt (artifact : List UInt8) (offset : ℕ) (state : StateRecord) : Prop where
  fits : offset + state.size ≤ artifact.length
  name : slice artifact offset identifierCapacity = padName state.name
  schemaVersion : slice artifact (offset + 64) 4 = leBytes 4 state.schemaVersion.toNat
  reserved : slice artifact (offset + 68) 4 = leBytes 4 0
  payloadSize : slice artifact (offset + 72) 8 = leBytes 8 state.payload.length
  payloadChecksum :
    slice artifact (offset + 80) 8 = leBytes 8 (artifactChecksum state.payload).toNat
  payload : slice artifact (offset + 88) state.payload.length = state.payload

variable {state : StateRecord} {offset : ℕ}

/-- The bytes of a record are determined by its state. -/
theorem StateAt.slice_eq {left right : List UInt8} (hl : StateAt left offset state)
    (hr : StateAt right offset state) :
    slice left offset state.size = slice right offset state.size := by
  have same : SameFields left right offset [64, 4, 4, 8, 8, state.payload.length] := by
    refine ⟨hl.name.trans hr.name.symm, hl.schemaVersion.trans hr.schemaVersion.symm,
      hl.reserved.trans hr.reserved.symm, hl.payloadSize.trans hr.payloadSize.symm,
      hl.payloadChecksum.trans hr.payloadChecksum.symm, hl.payload.trans hr.payload.symm, trivial⟩
  have sum : [64, 4, 4, 8, 8, state.payload.length].sum = state.size := by
    simp [StateRecord.size, checkpointRecordHeaderSize]
    omega
  simpa only [sum] using same.slice_eq

/-! ### Writing records -/

@[simp] theorem length_storeState (artifact : List UInt8) (offset : ℕ) (state : StateRecord) :
    (storeState artifact offset state).length = artifact.length := by
  simp [storeState]

variable {artifact : List UInt8} {count : ℕ}

/-- A record leaves everything outside its bytes as it was. -/
theorem slice_storeState_of_disjoint {place : ℕ} (valid : validIdentifier state.name)
    (apart : offset + count ≤ place ∨ place + state.size ≤ offset) :
    slice (storeState artifact place state) offset count = slice artifact offset count := by
  unfold StateRecord.size checkpointRecordHeaderSize at apart
  rw [storeState, slice_overwrite_of_disjoint (by omega), slice_storeU64_of_disjoint (by omega),
    slice_storeU64_of_disjoint (by omega), slice_storeU32_of_disjoint (by omega),
    slice_writeName_of_disjoint valid (by omega)]

/-- A record that is written over zeros stands where it was written. -/
theorem stateAt_storeState (valid : validIdentifier state.name)
    (fits : offset + state.size ≤ artifact.length) (small : state.payload.length < 2 ^ 64)
    (zeros : slice artifact (offset + 68) 4 = leBytes 4 0) :
    StateAt (storeState artifact offset state) offset state := by
  have room := fits
  unfold StateRecord.size checkpointRecordHeaderSize at room
  constructor
  case fits => simpa using fits
  case name =>
    rw [identifierCapacity, storeState, slice_overwrite_of_disjoint (by omega),
      slice_storeU64_of_disjoint (by omega), slice_storeU64_of_disjoint (by omega),
      slice_storeU32_of_disjoint (by omega)]
    exact slice_writeName valid (by omega)
  case schemaVersion =>
    rw [storeState, slice_overwrite_of_disjoint (by omega), slice_storeU64_of_disjoint (by omega),
      slice_storeU64_of_disjoint (by omega), slice_storeU32 _ (by simp; omega)]
  case reserved =>
    rw [storeState, slice_overwrite_of_disjoint (by omega), slice_storeU64_of_disjoint (by omega),
      slice_storeU64_of_disjoint (by omega), slice_storeU32_of_disjoint (by omega),
      slice_writeName_of_disjoint valid (by omega), zeros]
  case payloadSize =>
    rw [storeState, slice_overwrite_of_disjoint (by omega), slice_storeU64_of_disjoint (by omega),
      slice_storeU64 _ (by simp; omega), UInt64.toNat_ofNat_of_lt' small]
  case payloadChecksum =>
    rw [storeState, slice_overwrite_of_disjoint (by omega), slice_storeU64 _ (by simp; omega)]
  case payload =>
    rw [storeState, slice_overwrite _ _ _ (by simp; omega)]

/-- What stands outside the bytes of a record does not matter to it. -/
theorem StateAt.of_slice_eq {left right : List UInt8} (lengths : left.length = right.length)
    (same : ∀ place count, offset ≤ place → place + count ≤ offset + state.size →
      slice left place count = slice right place count) (at_ : StateAt right offset state) :
    StateAt left offset state := by
  unfold StateRecord.size checkpointRecordHeaderSize at same
  constructor
  case fits => exact lengths ▸ at_.fits
  case name => rw [same _ _ (by omega) (by unfold identifierCapacity; omega), at_.name]
  case schemaVersion => rw [same _ _ (by omega) (by omega), at_.schemaVersion]
  case reserved => rw [same _ _ (by omega) (by omega), at_.reserved]
  case payloadSize => rw [same _ _ (by omega) (by omega), at_.payloadSize]
  case payloadChecksum => rw [same _ _ (by omega) (by omega), at_.payloadChecksum]
  case payload => rw [same _ _ (by omega) (by omega), at_.payload]

/-- The records of states. -/
def stateFormat : RecordFormat UInt8 StateRecord where
  size := StateRecord.size
  At := StateAt
  fits at_ := at_.fits
  slice_eq hl hr := hl.slice_eq hr
  of_slice_eq lengths same at_ := at_.of_slice_eq lengths same

theorem StateRecord.validIdentifier_name (valid : state.valid) :
    validIdentifier state.name := by
  simp only [StateRecord.valid, Bool.and_eq_true] at valid
  exact valid.1.1

/-- A state whose record the second pass writes whole. -/
def StateRecord.Writable (state : StateRecord) : Prop :=
  validIdentifier state.name ∧ state.payload.length < 2 ^ 64

theorem stateWriter : RecordWriter stateFormat 0 StateRecord.Writable storeState where
  length_eq := length_storeState
  apart writable outside := slice_storeState_of_disjoint writable.1 outside
  stands := by
    intro artifact offset state writable fits zeros
    refine stateAt_storeState writable.1 fits writable.2 ?_
    rw [leBytes_zero]
    refine zeros _ _ (by omega) ?_
    simp only [stateFormat, StateRecord.size, checkpointRecordHeaderSize]
    omega

@[simp] theorem length_storeStates (states : List StateRecord) (offset : ℕ)
    (artifact : List UInt8) : (storeStates states offset artifact).length = artifact.length :=
  stateWriter.length_storeRecords

/-! ## The whole artifact -/

/-- The payload bytes of all states. -/
def payloadTotal (states : List StateRecord) : ℕ := (states.map (·.payload.length)).sum

/-- The header of a checkpoint, field by field. -/
structure CheckpointHeaderAt (artifact : List UInt8) (metadata : CheckpointMetadata) : Prop where
  magic : slice artifact 0 8 = checkpointMagic
  schema : slice artifact 8 4 = leBytes 4 metadata.schemaVersion.toNat
  headerSize : slice artifact 12 4 = leBytes 4 (UInt32.ofNat checkpointHeaderSize).toNat
  runtimeVersionMajor : slice artifact 16 4 = leBytes 4 metadata.runtimeVersionMajor.toNat
  runtimeVersionMinor : slice artifact 20 4 = leBytes 4 metadata.runtimeVersionMinor.toNat
  runtimeVersionPatch : slice artifact 24 4 = leBytes 4 metadata.runtimeVersionPatch.toNat
  tier : slice artifact 28 4 = leBytes 4 metadata.determinismTier.code.toNat
  flags : slice artifact 32 4 = leBytes 4 0
  stateCount : slice artifact 36 4 = leBytes 4 metadata.stateCount.toNat
  recordSize : slice artifact 40 4 = leBytes 4 (UInt32.ofNat checkpointRecordHeaderSize).toNat
  reserved : slice artifact 44 4 = leBytes 4 0
  configId : slice artifact 48 8 = leBytes 8 metadata.configId.toNat
  replayId : slice artifact 56 8 = leBytes 8 metadata.replayId.toNat
  graphId : slice artifact 64 8 = leBytes 8 metadata.graphId.toNat
  stateSchemaId : slice artifact 72 8 = leBytes 8 metadata.stateSchemaId.toNat
  frameIndex : slice artifact 80 8 = leBytes 8 metadata.checkpointFrameIndex.toNat
  payloadBytes : slice artifact 88 8 = leBytes 8 metadata.statePayloadBytes.toNat
  totalBytes : slice artifact 96 8 = leBytes 8 metadata.totalBytes.toNat
  stateHash : slice artifact 104 8 = leBytes 8 metadata.stateHash.toNat
  checksum : slice artifact 112 8 = leBytes 8 metadata.artifactChecksum.toNat
  buildId : slice artifact 120 64 = metadata.buildId.bytes
  workloadId : slice artifact 184 64 = metadata.workloadId.bytes
  padding : slice artifact 248 8 = leBytes 8 0

/-- The metadata of an artifact with these states: what the caller chooses is kept, the rest is
computed. -/
def CheckpointMetadata.describing (metadata : CheckpointMetadata) (artifact : List UInt8)
    (states : List StateRecord) : CheckpointMetadata :=
  { metadata with
    schemaVersion := checkpointSchemaVersion
    determinismTier := .ofCode metadata.determinismTier.code
    statePayloadBytes := UInt64.ofNat (payloadTotal states)
    totalBytes := UInt64.ofNat artifact.length
    stateHash := RtRuntime.artifactChecksum (artifact.drop checkpointHeaderSize)
    artifactChecksum := checksumExcluding artifact checkpointChecksumOffset 8
    stateCount := UInt32.ofNat states.length }

/-- The bytes of a checkpoint. -/
structure CheckpointFormat (artifact : List UInt8) (metadata : CheckpointMetadata)
    (states : List StateRecord) : Prop where
  header : CheckpointHeaderAt artifact (metadata.describing artifact states)
  states : stateFormat.SeqAt artifact checkpointHeaderSize states

namespace CheckpointFormat

variable {left right : List UInt8} {metadata : CheckpointMetadata} {states : List StateRecord}

theorem length_eq (format : CheckpointFormat left metadata states) :
    left.length = checkpointHeaderSize + (states.map StateRecord.size).sum :=
  format.states.length_eq

/-- Metadata and states determine the bytes. -/
theorem unique (hl : CheckpointFormat left metadata states)
    (hr : CheckpointFormat right metadata states) : left = right := by
  have lengths : left.length = right.length := hl.length_eq.trans hr.length_eq.symm
  have tails : left.drop checkpointHeaderSize = right.drop checkpointHeaderSize :=
    hl.states.drop_eq hr.states
  have room : 256 ≤ left.length := by
    rw [hl.length_eq, checkpointHeaderSize]
    omega
  have l := hl.header
  have r := hr.header
  have total := l.totalBytes
  have hash := l.stateHash
  simp only [CheckpointMetadata.describing, lengths, tails] at total hash
  have before : SameFields left right 0 [8, 4, 4, 4, 4, 4, 4, 4, 4, 4, 4, 8, 8, 8, 8, 8, 8, 8, 8] :=
    ⟨l.magic.trans r.magic.symm, l.schema.trans r.schema.symm, l.headerSize.trans r.headerSize.symm,
      l.runtimeVersionMajor.trans r.runtimeVersionMajor.symm,
      l.runtimeVersionMinor.trans r.runtimeVersionMinor.symm,
      l.runtimeVersionPatch.trans r.runtimeVersionPatch.symm, l.tier.trans r.tier.symm,
      l.flags.trans r.flags.symm, l.stateCount.trans r.stateCount.symm,
      l.recordSize.trans r.recordSize.symm, l.reserved.trans r.reserved.symm,
      l.configId.trans r.configId.symm, l.replayId.trans r.replayId.symm,
      l.graphId.trans r.graphId.symm, l.stateSchemaId.trans r.stateSchemaId.symm,
      l.frameIndex.trans r.frameIndex.symm, l.payloadBytes.trans r.payloadBytes.symm,
      total.trans r.totalBytes.symm, hash.trans r.stateHash.symm, trivial⟩
  have after : SameFields left right 120 [64, 64, 8] :=
    ⟨l.buildId.trans r.buildId.symm, l.workloadId.trans r.workloadId.symm,
      l.padding.trans r.padding.symm, trivial⟩
  refine eq_of_checksum before.slice_eq ?_ (show 112 + 8 ≤ left.length by omega)
    (show 112 + 8 ≤ right.length by omega) l.checksum
    r.checksum
  rw [drop_eq_slice_append left _ 136, drop_eq_slice_append right _ 136]
  exact congrArg₂ (· ++ ·) after.slice_eq tails

end CheckpointFormat

/-! ## The encoder -/

section Encoder

variable {metadata : CheckpointMetadata} {states : List StateRecord}

@[simp] theorem length_storeCheckpointHeader (stateCount payloadBytes required : ℕ)
    (artifact : List UInt8) :
    (storeCheckpointHeader metadata stateCount payloadBytes required artifact).length =
      artifact.length := by
  simp [storeCheckpointHeader]

@[simp] theorem length_sealCheckpoint (artifact : List UInt8) :
    (sealCheckpoint artifact).length = artifact.length := by
  simp [sealCheckpoint]

@[simp] theorem length_checkpointArtifact (payloadBytes required : ℕ) :
    (checkpointArtifact metadata states payloadBytes required).length = required := by
  simp [checkpointArtifact]

/-- The hashes are written last and elsewhere. -/
theorem slice_sealCheckpoint (outside : offset + count ≤ 104 ∨ 120 ≤ offset) :
    slice (sealCheckpoint artifact) offset count = slice artifact offset count := by
  rw [sealCheckpoint, slice_storeU64_of_disjoint (by unfold checkpointChecksumOffset; omega),
    slice_storeU64_of_disjoint (by omega)]

theorem drop_sealCheckpoint (artifact : List UInt8) :
    (sealCheckpoint artifact).drop checkpointHeaderSize = artifact.drop checkpointHeaderSize := by
  rw [sealCheckpoint, drop_storeU64 (by simp [checkpointChecksumOffset, checkpointHeaderSize]),
    drop_storeU64 (by simp [checkpointHeaderSize])]

variable {payloadBytes : ℕ}

/-- A header field of the artifact is what the header's stores left there. -/
theorem slice_checkpointArtifact {required : ℕ} (writable : ∀ state ∈ states, state.Writable)
    (outside : offset + count ≤ 104 ∨ 120 ≤ offset) (inside : offset + count ≤ 256) :
    slice (checkpointArtifact metadata states payloadBytes required) offset count =
      slice (storeCheckpointHeader metadata states.length payloadBytes required
        (List.replicate required 0)) offset count := by
  rw [checkpointArtifact, slice_sealCheckpoint outside]
  exact stateWriter.slice_storeRecords_of_le writable inside

/-- The stores into the header stay in the header. -/
theorem slice_storeCheckpointHeader_of_le {stateCount required : ℕ} (after : 256 ≤ offset) :
    slice (storeCheckpointHeader metadata stateCount payloadBytes required artifact) offset count =
      slice artifact offset count := by
  simp (disch := omega) only [storeCheckpointHeader, slice_storeU32_of_disjoint,
    slice_storeU64_of_disjoint, slice_writeIdentifier_of_disjoint]
  exact slice_overwrite_of_disjoint (.inr (by simp [checkpointMagic]; omega))

/-- The encoder's bytes are in the format. -/
theorem checkpointFormat_checkpointArtifact {required : ℕ}
    (writable : ∀ state ∈ states, state.Writable) (payload : payloadBytes = payloadTotal states)
    (size : required = checkpointHeaderSize + (states.map StateRecord.size).sum)
    (tier : validTier metadata.determinismTier.code) :
    CheckpointFormat (checkpointArtifact metadata states payloadBytes required) metadata
      states := by
  have room : 256 ≤ required := by
    rw [size, checkpointHeaderSize]
    omega
  have zeros : ∀ offset count, offset + count ≤ required →
      slice (List.replicate required (0 : UInt8)) offset count = List.replicate count 0 :=
    fun offset count fits => slice_replicate 0 fits
  have header : ∀ offset count, (offset + count ≤ 104 ∨ 120 ≤ offset) → offset + count ≤ 256 →
      slice (checkpointArtifact metadata states payloadBytes required) offset count =
        slice (storeCheckpointHeader metadata states.length payloadBytes required
          (List.replicate required 0)) offset count :=
    fun offset count outside inside => slice_checkpointArtifact writable outside inside
  refine ⟨?_, ?states⟩
  case states =>
    refine RecordFormat.SeqAt.of_slice_eq (by simp [checkpointArtifact])
      (fun place count after => slice_sealCheckpoint (.inr ?_))
      (stateWriter.seqAt_storeRecords writable (by simpa [stateFormat] using size) ?_)
    · unfold checkpointHeaderSize at after
      omega
    · intro place count after inside
      unfold checkpointHeaderSize at after
      simp only [length_storeCheckpointHeader, List.length_replicate] at inside
      rw [slice_storeCheckpointHeader_of_le after, zeros _ _ inside]
  constructor
  case stateHash =>
    change _ = leBytes 8 (artifactChecksum ((checkpointArtifact metadata states payloadBytes
      required).drop checkpointHeaderSize)).toNat
    rw [checkpointArtifact, drop_sealCheckpoint, sealCheckpoint,
      slice_storeU64_of_disjoint (by simp [checkpointChecksumOffset]),
      slice_storeU64 _ (by simp; omega)]
  case checksum =>
    change _ = leBytes 8 (checksumExcluding (checkpointArtifact metadata states payloadBytes
      required) checkpointChecksumOffset 8).toNat
    rw [checkpointArtifact, sealCheckpoint, checksumExcluding_storeU64]
    exact slice_storeU64 _ (by simp [checkpointChecksumOffset]; omega)
  all_goals
    rw [header _ _ (by omega) (by omega)]
    simp (disch := first | omega | (simp; omega)) only [storeCheckpointHeader, slice_storeU32,
      slice_storeU64, slice_storeU32_of_disjoint, slice_storeU64_of_disjoint,
      slice_writeIdentifier, slice_writeIdentifier_of_disjoint]
  case magic => exact slice_overwrite _ _ checkpointMagic (by simp [checkpointMagic]; omega)
  case tier => rw [CheckpointMetadata.describing, DeterminismTier.code_ofCode tier]
  case payloadBytes => rw [payload, CheckpointMetadata.describing]
  case totalBytes => rw [CheckpointMetadata.describing, length_checkpointArtifact]
  case flags | reserved | padding =>
    rw [slice_overwrite_of_disjoint (by simp [checkpointMagic]), zeros _ _ (by omega),
      leBytes_zero]
  all_goals rfl

end Encoder

/-! ## The encoder's checks -/

/-- The size of a checkpoint of these states. -/
def checkpointSize (states : List StateRecord) : ℕ :=
  checkpointHeaderSize + states.length * checkpointRecordHeaderSize + payloadTotal states

theorem checkpointSize_eq (states : List StateRecord) :
    checkpointSize states = checkpointHeaderSize + (states.map StateRecord.size).sum := by
  have sums : states.length * checkpointRecordHeaderSize + payloadTotal states =
      (states.map StateRecord.size).sum := by
    induction states with
    | nil => rfl
    | cons state states ih =>
      simp only [payloadTotal, List.map_cons, List.sum_cons, List.length_cons, StateRecord.size]
        at ih ⊢
      rw [← ih]
      ring
  rw [checkpointSize, Nat.add_assoc, sums]

theorem countPayloads_eq_some {states : List StateRecord} {total bytes : ℕ}
    (small : total ≤ u64Max) :
    countPayloads states total = some bytes ↔
      (∀ state ∈ states, state.valid) ∧ total + payloadTotal states ≤ u64Max ∧
        bytes = total + payloadTotal states := by
  induction states generalizing total with
  | nil =>
    simp only [countPayloads, payloadTotal, Option.some.injEq, List.map_nil, List.sum_nil]
    constructor
    · rintro rfl
      exact ⟨by simp, by omega, by omega⟩
    · rintro ⟨-, -, rfl⟩
      omega
  | cons state states ih =>
    have total_cons : payloadTotal (state :: states) =
        state.payload.length + payloadTotal states := by
      simp [payloadTotal]
    rw [countPayloads, total_cons]
    by_cases valid : state.valid
    · rw [if_pos valid, Option.bind_eq_some_iff]
      constructor
      · rintro ⟨sum, added, rest⟩
        obtain ⟨fits, rfl⟩ := (checkedArtifactAdd_eq_some small).mp added
        obtain ⟨all, bound, rfl⟩ := (ih fits).mp rest
        refine ⟨?_, by omega, by omega⟩
        simpa [valid] using all
      · rintro ⟨all, bound, rfl⟩
        refine ⟨_, (checkedArtifactAdd_eq_some small).mpr ⟨by omega, rfl⟩, ?_⟩
        refine (ih (by omega)).mpr ⟨fun later member => ?_, by omega, by omega⟩
        exact all later (List.mem_cons_of_mem _ member)
    · simp [valid]

/-- What the encoder asks for before it writes. -/
structure CheckpointEncodable (metadata : CheckpointMetadata) (states : List StateRecord)
    (maxBytes outputSize : ℕ) : Prop where
  count : states.length ≤ artifactAbsoluteMaxRecords
  bound : maxBytes ≤ artifactAbsoluteMaxBytes
  tier : validTier metadata.determinismTier.code
  buildId : validIdentifier metadata.buildId.view
  workloadId : validIdentifier metadata.workloadId.view
  valid : ∀ state ∈ states, state.valid
  fits : checkpointSize states ≤ maxBytes
  room : checkpointSize states ≤ outputSize

/-- A successful call has passed the checks. -/
theorem encodable_of_status {metadata : CheckpointMetadata} {states : List StateRecord}
    {maxBytes : ℕ} {output : List UInt8}
    (ok : (encodeCheckpointArtifact metadata states maxBytes output).status = .ok) :
    CheckpointEncodable metadata states maxBytes output.length := by
  unfold encodeCheckpointArtifact at ok
  split at ok
  case isTrue => cases ok
  case isFalse checks =>
    push Not at checks
    obtain ⟨count, -, bound, -, tier, buildId, workloadId⟩ := checks
    split at ok
    case h_1 => cases ok
    case h_2 payloadBytes counted =>
      obtain ⟨valid, -, rfl⟩ := (countPayloads_eq_some (by simp)).mp counted
      split at ok
      case h_1 => cases ok
      case h_2 required sized =>
        obtain ⟨-, size⟩ := (requiredBytes_eq_some (by decide)).mp sized
        rw [Nat.zero_add] at size
        change required = checkpointSize states at size
        split at ok
        case isTrue => cases ok
        case isFalse room =>
          push Not at room
          exact ⟨count, bound, by simpa using tier, by simpa using buildId,
            by simpa using workloadId, valid, size ▸ room.1, size ▸ room.2⟩

namespace CheckpointEncodable

variable {metadata : CheckpointMetadata} {states : List StateRecord} {maxBytes : ℕ}
  {output : List UInt8}

/-- The checks are all that is asked for. -/
theorem encode_eq (ok : CheckpointEncodable metadata states maxBytes output.length) :
    encodeCheckpointArtifact metadata states maxBytes output =
      ⟨.ok,
        { requiredBytes := checkpointSize states
          bytesWritten := checkpointSize states
          checksum := checksumExcluding (checkpointArtifact metadata states (payloadTotal states)
            (checkpointSize states)) checkpointChecksumOffset 8 },
        checkpointArtifact metadata states (payloadTotal states) (checkpointSize states) ++
          output.drop (checkpointSize states)⟩ := by
  obtain ⟨count, bound, tier, buildId, workloadId, valid, fits, room⟩ := ok
  have header : checkpointHeaderSize ≤ checkpointSize states := by
    unfold checkpointSize
    omega
  have small : checkpointSize states ≤ u64Max := le_u64Max_of_limits fits bound
  have counted : countPayloads states 0 = some (payloadTotal states) := by
    refine (countPayloads_eq_some (by simp)).mpr ⟨valid, ?_, by omega⟩
    unfold checkpointSize at small
    omega
  have sized : requiredBytes checkpointHeaderSize checkpointRecordHeaderSize states.length
      (payloadTotal states) = some (checkpointSize states) :=
    (requiredBytes_eq_some (by decide)).mpr ⟨small, rfl⟩
  unfold encodeCheckpointArtifact
  rw [if_neg, counted]
  · simp only [sized]
    rw [if_neg (by omega)]
  · unfold artifactAbsoluteMaxRecords at count ⊢
    simp only [tier, buildId, workloadId]
    simp
    omega

theorem artifact_eq (ok : CheckpointEncodable metadata states maxBytes output.length) :
    (encodeCheckpointArtifact metadata states maxBytes output).artifact =
      checkpointArtifact metadata states (payloadTotal states) (checkpointSize states) := by
  rw [ok.encode_eq, ArtifactWrite.artifact, List.take_append_of_le_length (by simp)]
  exact List.take_of_length_le (by simp)

theorem payload_le_size (member : state ∈ states) :
    state.payload.length ≤ checkpointSize states := by
  have one := List.single_le_sum (fun _ _ => Nat.zero_le _) state.payload.length
    (List.mem_map_of_mem (f := fun state : StateRecord => state.payload.length) member)
  unfold checkpointSize payloadTotal
  omega

/-- What a successful call writes is in the format. -/
theorem format (ok : CheckpointEncodable metadata states maxBytes output.length) :
    CheckpointFormat (encodeCheckpointArtifact metadata states maxBytes output).artifact
      metadata states := by
  rw [ok.artifact_eq]
  refine checkpointFormat_checkpointArtifact ?_ rfl (checkpointSize_eq states) ok.tier
  intro state member
  refine ⟨StateRecord.validIdentifier_name (ok.valid state member), ?_⟩
  have below := payload_le_size member
  have fits := ok.fits
  have bound := ok.bound
  unfold artifactAbsoluteMaxBytes at bound
  omega

end CheckpointEncodable

end RtRuntime
