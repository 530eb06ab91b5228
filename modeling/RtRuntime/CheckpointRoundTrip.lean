import RtRuntime.CheckpointFormat

/-!
# Checkpoints, written and read

The parser accepts exactly the bytes that `CheckpointFormat` describes, and the record cursor walks
over the records it has accepted.  The round trip in both directions follows.
-/

namespace RtRuntime

/-! ## The parser -/

section Parser

variable {artifact : List UInt8} {offset : ℕ}

/-- The loads of a record's header, field by field. -/
structure StateHeaderAt (artifact : List UInt8) (offset : ℕ) (header : StateHeader) : Prop where
  fits : offset + checkpointRecordHeaderSize ≤ artifact.length
  place : header.name.offset = offset
  name : ∃ text, validIdentifier text ∧ text.length = header.name.size ∧
    slice artifact offset identifierCapacity = padName text
  schemaVersion : slice artifact (offset + 64) 4 = leBytes 4 header.schemaVersion.toNat
  reserved : slice artifact (offset + 68) 4 = leBytes 4 header.reserved.toNat
  payloadSize : slice artifact (offset + 72) 8 = leBytes 8 header.payloadSize.toNat
  payloadChecksum : slice artifact (offset + 80) 8 = leBytes 8 header.payloadChecksum.toNat

theorem loadStateHeader_eq_ok {header : StateHeader} :
    loadStateHeader artifact offset = .ok header ↔ StateHeaderAt artifact offset header := by
  simp only [loadStateHeader, bind_eq_ok, need_eq_ok, fixedName_eq_some, loadU32_eq_some,
    loadU64_eq_some]
  constructor
  · rintro ⟨name, ⟨place, text⟩, schemaVersion, hs, reserved, hr, payloadSize, hp,
      payloadChecksum, hc, made⟩
    cases made
    have fits : offset + 80 + 8 ≤ artifact.length :=
      fits_of_length_slice (by decide) (by rw [hc, length_leBytes])
    exact ⟨fits, place, text, hs, hr, hp, hc⟩
  · intro at_
    exact ⟨_, ⟨at_.place, at_.name⟩, _, at_.schemaVersion, _, at_.reserved, _, at_.payloadSize, _,
      at_.payloadChecksum, rfl⟩

/-- The header that the record of a state has. -/
@[simps] def StateRecord.headerAt (state : StateRecord) (offset : ℕ) : StateHeader where
  name := ⟨offset, state.name.length⟩
  schemaVersion := state.schemaVersion
  reserved := 0
  payloadSize := UInt64.ofNat state.payload.length
  payloadChecksum := artifactChecksum state.payload

theorem StateAt.toNat_length {state : StateRecord} (at_ : StateAt artifact offset state)
    (small : artifact.length ≤ u64Max) :
    (UInt64.ofNat state.payload.length).toNat = state.payload.length := by
  have fits := at_.fits
  unfold StateRecord.size at fits
  exact toNat_ofNat_of_le (by omega)

theorem StateAt.header {state : StateRecord} (at_ : StateAt artifact offset state)
    (valid : validIdentifier state.name) (small : artifact.length ≤ u64Max) :
    StateHeaderAt artifact offset (state.headerAt offset) := by
  have fits := at_.fits
  unfold StateRecord.size at fits
  exact ⟨by omega, rfl, ⟨state.name, valid, rfl, at_.name⟩, at_.schemaVersion, at_.reserved,
    by rw [at_.payloadSize, StateRecord.headerAt, at_.toNat_length small], at_.payloadChecksum⟩

/-- A header whose payload has the right checksum is the header of a state. -/
theorem StateHeaderAt.state {header : StateHeader} (at_ : StateHeaderAt artifact offset header)
    (reserved : header.reserved = 0)
    (inside : header.payloadSize.toNat ≤ artifact.length - (offset + checkpointRecordHeaderSize))
    (checksum : artifactChecksum (slice artifact (offset + checkpointRecordHeaderSize)
      header.payloadSize.toNat) = header.payloadChecksum) :
    ∃ state : StateRecord, validIdentifier state.name ∧ StateAt artifact offset state ∧
      header = state.headerAt offset := by
  obtain ⟨text, valid, size, field⟩ := at_.name
  have fits := at_.fits
  have width : (slice artifact (offset + checkpointRecordHeaderSize)
      header.payloadSize.toNat).length = header.payloadSize.toNat := length_slice (by omega)
  refine ⟨⟨text, header.schemaVersion,
    slice artifact (offset + checkpointRecordHeaderSize) header.payloadSize.toNat⟩, valid, ?_, ?_⟩
  · constructor
    case fits =>
      simp only [StateRecord.size, width]
      omega
    case name => exact field
    case schemaVersion => exact at_.schemaVersion
    case reserved => rw [at_.reserved, reserved]; rfl
    case payloadSize => rw [at_.payloadSize, width]
    case payloadChecksum => rw [at_.payloadChecksum, checksum]
    case payload => rw [width]; rfl
  · cases header
    simp only [StateRecord.headerAt, StateHeader.mk.injEq]
    have place := at_.place
    simp only at place size reserved checksum width ⊢
    refine ⟨?_, trivial, reserved, ?_, checksum.symm⟩
    · rw [size, ← place]
    · rw [width, UInt64.ofNat_toNat]

/-- One turn of the parser's loop reads the record of a valid state. -/
theorem parseState_eq_ok {payloadBytes : ℕ} {after : ℕ × ℕ} (small : artifact.length ≤ u64Max)
    (below : payloadBytes ≤ offset) :
    parseState artifact offset payloadBytes = .ok after ↔
      ∃ state : StateRecord, state.valid ∧ StateAt artifact offset state ∧
        after = (offset + state.size, payloadBytes + state.payload.length) := by
  simp only [parseState, bind_eq_ok, reject_eq_ok, need_eq_ok, loadStateHeader_eq_ok, exists_const]
  constructor
  · rintro ⟨room, header, at_, checks, inside, total, added, checksum, made⟩
    push Not at checks
    obtain ⟨schema, reserved, size⟩ := checks
    have bound : payloadBytes ≤ u64Max := by omega
    obtain ⟨-, rfl⟩ := (checkedArtifactAdd_eq_some bound).mp added
    obtain ⟨state, named, stands, rfl⟩ := at_.state reserved (by omega) (by simpa using checksum)
    have length := stands.toNat_length small
    refine ⟨state, ?_, stands, ?_⟩
    · simp only [StateRecord.valid, Bool.and_eq_true, named, true_and]
      simp only [StateRecord.headerAt_schemaVersion,
        StateRecord.headerAt_payloadSize] at schema size
      refine ⟨by simpa using schema, ?_⟩
      cases payload : state.payload with
      | nil => simp [payload] at size
      | cons => rfl
    · rw [← Except.ok.inj made, StateRecord.size]
      simp only [StateRecord.headerAt_payloadSize, length, Nat.add_assoc]
  · rintro ⟨state, valid, stands, rfl⟩
    simp only [StateRecord.valid, Bool.and_eq_true] at valid
    obtain ⟨⟨named, schema⟩, nonempty⟩ := valid
    have fits := stands.fits
    unfold StateRecord.size at fits
    have length := stands.toNat_length small
    refine ⟨by omega, state.headerAt offset, stands.header named small, ?_, ?_,
      payloadBytes + state.payload.length, ?_, ?_, ?_⟩
    · push Not
      refine ⟨by simpa using schema, rfl, fun zero => ?_⟩
      have none : state.payload.length = 0 := by
        rw [← length, ← StateRecord.headerAt_payloadSize, zero]
        rfl
      rw [List.length_eq_zero_iff.mp none] at nonempty
      cases nonempty
    · simp only [StateRecord.headerAt_payloadSize, length]
      omega
    · simp only [StateRecord.headerAt_payloadSize, length]
      exact (checkedArtifactAdd_eq_some (by omega)).mpr ⟨by omega, rfl⟩
    · simp only [StateRecord.headerAt_payloadSize, StateRecord.headerAt_payloadChecksum, length,
        not_not]
      exact congrArg artifactChecksum stands.payload
    · simp only [StateRecord.headerAt_payloadSize, length, StateRecord.size, Nat.add_assoc]
      rfl

/-- The parser's loop reaches the end exactly over the records of valid states. -/
theorem parseStates_eq_ok {count payloadBytes total : ℕ} (small : artifact.length ≤ u64Max)
    (below : payloadBytes ≤ offset) :
    parseStates artifact count (offset, payloadBytes) = .ok (artifact.length, total) ↔
      ∃ states : List StateRecord, states.length = count ∧ (∀ state ∈ states, state.valid) ∧
        stateFormat.SeqAt artifact offset states ∧ total = payloadBytes + payloadTotal states := by
  induction count generalizing offset payloadBytes with
  | zero =>
    simp only [parseStates, Except.ok.injEq, Prod.mk.injEq, List.length_eq_zero_iff]
    constructor
    · rintro ⟨done, rfl⟩
      exact ⟨[], rfl, by simp, done, rfl⟩
    · rintro ⟨_, rfl, -, done, rfl⟩
      exact ⟨done, rfl⟩
  | succ count ih =>
    simp only [parseStates, bind_eq_ok, parseState_eq_ok small below]
    constructor
    · rintro ⟨after, ⟨state, valid, stands, rfl⟩, rest⟩
      obtain ⟨states, rfl, all, later, rfl⟩ := (ih (by unfold StateRecord.size; omega)).mp rest
      refine ⟨state :: states, rfl, ?_, ⟨stands, later⟩, ?_⟩
      · simpa [valid] using all
      · simp [payloadTotal, Nat.add_assoc]
    · rintro ⟨states, length, all, stand, rfl⟩
      cases states with
      | nil => cases length
      | cons state states =>
        obtain ⟨first, all⟩ := List.forall_mem_cons.mp all
        refine ⟨_, ⟨state, first, stand.1, rfl⟩, ?_⟩
        refine (ih (by unfold StateRecord.size; omega)).mpr ⟨states, Nat.succ.inj length, all,
          stand.2, ?_⟩
        simp [payloadTotal, Nat.add_assoc]

/-- What the header checks ask for. -/
structure CheckpointHeaderOk (artifact : List UInt8) (maxBytes maxStates : ℕ)
    (metadata : CheckpointMetadata) : Prop where
  byteLimit : maxBytes ≤ artifactAbsoluteMaxBytes
  stateLimit : maxStates ≤ artifactAbsoluteMaxRecords
  room : checkpointHeaderSize ≤ artifact.length
  bound : artifact.length ≤ maxBytes
  header : CheckpointHeaderAt artifact metadata
  schema : metadata.schemaVersion = checkpointSchemaVersion
  tier : validTier metadata.determinismTier.code
  tierCast : metadata.determinismTier = .ofCode metadata.determinismTier.code
  buildId : validIdentifier metadata.buildId.view ∧ metadata.buildId.padded
  workloadId : validIdentifier metadata.workloadId.view ∧ metadata.workloadId.padded
  stateCount : metadata.stateCount.toNat ≤ maxStates
  totalBytes : metadata.totalBytes.toNat = artifact.length
  payloadBytes : metadata.statePayloadBytes.toNat ≤ maxBytes

variable {metadata : CheckpointMetadata} {maxStates maxBytes : ℕ}

theorem parseCheckpointHeader_eq_ok :
    parseCheckpointHeader artifact maxBytes maxStates = .ok metadata ↔
      CheckpointHeaderOk artifact maxBytes maxStates metadata := by
  simp only [parseCheckpointHeader, bind_eq_ok, reject_eq_ok, need_eq_ok, exists_const,
    loadU32_eq_some, loadU64_eq_some, fixedIdentifier_eq_some]
  constructor
  · rintro ⟨bounds, schema, h8, headerSize, h12, major, h16, minor, h20,
      patch, h24, tier, h28, flags, h32, stateCount, h36, recordSize, h40,
      reserved, h44, configId, h48, replayId, h56, graphId, h64,
      stateSchemaId, h72, frameIndex, h80, payloadBytes, h88, totalBytes, h96,
      stateHash, h104, checksum, h112, buildId, ⟨h120, hb⟩, workloadId, ⟨h184, hw⟩,
      checks, made⟩
    cases made
    push Not at bounds checks
    obtain ⟨b1, b2, b3, b4, magic⟩ := bounds
    obtain ⟨rfl, rfl, rfl, rfl, rfl, padding, valid, count, total, payload⟩ := checks
    have tierCode : (DeterminismTier.ofCode tier).code = tier :=
      DeterminismTier.code_ofCode (by simpa using valid)
    refine ⟨b1, b2, b3, b4, ?_, rfl, ?_, ?_, hb, hw, count, total, payload⟩
    · have width : (slice artifact 248 8).length = 8 :=
        length_slice (by unfold checkpointHeaderSize at b3; omega)
      exact ⟨magic, h8, h12, h16, h20, h24, by rw [tierCode]; exact h28, h32, h36, h40, h44, h48,
        h56, h64, h72, h80, h88, h96, h104, h112, h120, h184,
        (all_zero_iff width).mp (by simpa using padding)⟩
    · rw [tierCode]
      simpa using valid
    · rw [tierCode]
  · intro ok
    have room := ok.room
    have h := ok.header
    unfold checkpointHeaderSize at room
    refine ⟨?_, _, h.schema, _, h.headerSize,
      _, h.runtimeVersionMajor, _, h.runtimeVersionMinor,
      _, h.runtimeVersionPatch, _, h.tier, 0, h.flags,
      _, h.stateCount, _, h.recordSize, 0, h.reserved,
      _, h.configId, _, h.replayId, _, h.graphId,
      _, h.stateSchemaId, _, h.frameIndex, _, h.payloadBytes,
      _, h.totalBytes, _, h.stateHash,
      _, h.checksum,
      _, ⟨h.buildId, ok.buildId⟩,
      _, ⟨h.workloadId, ok.workloadId⟩, ?_, ?_⟩
    · push Not
      exact ⟨ok.byteLimit, ok.stateLimit, ok.room, ok.bound, h.magic⟩
    · push Not
      refine ⟨ok.schema, rfl, rfl, rfl, rfl, ?_, ok.tier, ok.stateCount, ok.totalBytes,
        ok.payloadBytes⟩
      exact (all_zero_iff (length_slice (by omega))).mpr h.padding
    · rw [← ok.tierCast]
      rfl

/-- What the parser accepts. -/
structure CheckpointParsable (artifact : List UInt8) (maxBytes maxStates : ℕ)
    (metadata : CheckpointMetadata) (states : List StateRecord) : Prop where
  byteLimit : maxBytes ≤ artifactAbsoluteMaxBytes
  stateLimit : maxStates ≤ artifactAbsoluteMaxRecords
  bound : artifact.length ≤ maxBytes
  count : states.length ≤ maxStates
  valid : ∀ state ∈ states, state.valid
  tier : validTier metadata.determinismTier.code
  buildId : validIdentifier metadata.buildId.view ∧ metadata.buildId.padded
  workloadId : validIdentifier metadata.workloadId.view ∧ metadata.workloadId.padded
  format : CheckpointFormat artifact metadata states
  described : metadata = metadata.describing artifact states

variable {states : List StateRecord}

theorem CheckpointParsable.small
    (ok : CheckpointParsable artifact maxBytes maxStates metadata states) :
    artifact.length ≤ u64Max :=
  le_u64Max_of_limits ok.bound ok.byteLimit

theorem CheckpointParsable.stateCount
    (ok : CheckpointParsable artifact maxBytes maxStates metadata states) :
    metadata.stateCount.toNat = states.length := by
  rw [ok.described]
  exact UInt32.toNat_ofNat_of_lt' ((ok.count.trans ok.stateLimit).trans_lt (by decide))

theorem payloadTotal_le_length (format : CheckpointFormat artifact metadata states) :
    payloadTotal states ≤ artifact.length := by
  rw [format.length_eq, ← checkpointSize_eq, checkpointSize]
  omega

/-- The parser accepts exactly the byte strings in the format. -/
theorem parseCheckpointArtifact_eq_ok :
    parseCheckpointArtifact artifact maxBytes maxStates = .ok metadata ↔
      ∃ states, CheckpointParsable artifact maxBytes maxStates metadata states := by
  simp only [parseCheckpointArtifact, bind_eq_ok, reject_eq_ok, exists_const,
    parseCheckpointHeader_eq_ok]
  constructor
  · rintro ⟨parsed, ok, checksum, ⟨reached, total⟩, read, ends, made⟩
    obtain rfl := Except.ok.inj made
    push Not at checksum ends
    obtain ⟨rfl, totals, hash⟩ := ends
    have small := le_u64Max_of_limits ok.bound ok.byteLimit
    obtain ⟨states, length, valid, stand, total_eq⟩ := (parseStates_eq_ok small (by simp)).mp read
    have described : parsed = parsed.describing artifact states := by
      have h1 : UInt64.ofNat (payloadTotal states) = parsed.statePayloadBytes := by
        have total_is : total = parsed.statePayloadBytes.toNat := totals
        rw [← Nat.zero_add (payloadTotal states), ← total_eq, total_is, UInt64.ofNat_toNat]
      have h2 : UInt64.ofNat artifact.length = parsed.totalBytes := by
        rw [← ok.totalBytes, UInt64.ofNat_toNat]
      have h3 : UInt32.ofNat states.length = parsed.stateCount := by
        rw [length, UInt32.ofNat_toNat]
      rw [CheckpointMetadata.describing, h1, h2, h3, hash, checksum, ← ok.schema, ← ok.tierCast]
    refine ⟨states, ok.byteLimit, ok.stateLimit, ok.bound, length ▸ ok.stateCount, valid, ok.tier,
      ok.buildId, ok.workloadId, ⟨described ▸ ok.header, stand⟩, described⟩
  · rintro ⟨states, ok⟩
    have small := ok.small
    have payload := payloadTotal_le_length ok.format
    have count := ok.stateCount
    have total : metadata.totalBytes.toNat = artifact.length := by
      rw [ok.described]
      exact toNat_ofNat_of_le (by omega)
    have payloads : metadata.statePayloadBytes.toNat = payloadTotal states := by
      rw [ok.described]
      exact toNat_ofNat_of_le (by omega)
    have checksum : metadata.artifactChecksum =
        checksumExcluding artifact checkpointChecksumOffset 8 := by
      rw [ok.described]
      rfl
    have hash : metadata.stateHash =
        artifactChecksum (artifact.drop checkpointHeaderSize) := by
      rw [ok.described]
      rfl
    refine ⟨metadata, ?_, by simp [checksum], (artifact.length, payloadTotal states), ?_, ?_, rfl⟩
    · refine ⟨ok.byteLimit, ok.stateLimit, ?_, ok.bound, ?_, ?_, ok.tier, ?_, ok.buildId,
        ok.workloadId, by rw [count]; exact ok.count, total, ?_⟩
      · rw [ok.format.length_eq]
        omega
      · rw [ok.described]
        exact ok.format.header
      · rw [ok.described]
        rfl
      · exact congrArg CheckpointMetadata.determinismTier ok.described
      · have bound := ok.bound
        omega
    · rw [count]
      exact (parseStates_eq_ok small (by simp)).mpr
        ⟨states, rfl, ok.valid, ok.format.states, by omega⟩
    · push Not
      exact ⟨rfl, payloads.symm, hash.symm⟩

end Parser

/-! ## The record cursor -/

section Cursor

variable {artifact : List UInt8} {offset index : ℕ} {metadata : CheckpointMetadata}

/-- What the cursor returns for the record of a state. -/
def StateRecord.viewAt (state : StateRecord) (offset : ℕ) : CheckpointRecordView :=
  ⟨⟨offset, state.name.length⟩, state.schemaVersion,
    ⟨offset + checkpointRecordHeaderSize, state.payload.length⟩⟩

theorem StateAt.view {state : StateRecord} (at_ : StateAt artifact offset state)
    (valid : state.valid) : (state.viewAt offset).state artifact = state := by
  have name : (Span.mk offset state.name.length).of artifact = state.name :=
    Span.of_padName rfl rfl (StateRecord.validIdentifier_name valid) at_.name
  have payload : (Span.mk (offset + checkpointRecordHeaderSize) state.payload.length).of artifact =
      state.payload := at_.payload
  rw [CheckpointRecordView.state, StateRecord.viewAt, name, payload]

theorem nextCheckpointRecord_eq {state : StateRecord} (at_ : StateAt artifact offset state)
    (valid : state.valid) (small : artifact.length ≤ u64Max)
    (more : index < metadata.stateCount.toNat) :
    nextCheckpointRecord artifact metadata ⟨offset, index⟩ =
      (some (state.viewAt offset), ⟨offset + state.size, index + 1⟩) := by
  have fits := at_.fits
  unfold StateRecord.size at fits
  have length := at_.toNat_length small
  have checksum : artifactChecksum
      ((Span.mk (offset + checkpointRecordHeaderSize) state.payload.length).of artifact) =
        artifactChecksum state.payload := congrArg artifactChecksum at_.payload
  have loaded :=
    loadStateHeader_eq_ok.mpr (at_.header (StateRecord.validIdentifier_name valid) small)
  have room : ¬ (index ≥ metadata.stateCount.toNat ∨
      artifact.length < offset + checkpointRecordHeaderSize) := by omega
  have inside : ¬ state.payload.length >
      artifact.length - (offset + checkpointRecordHeaderSize) := by omega
  simp only [nextCheckpointRecord, if_neg room, loaded, StateRecord.headerAt_reserved, ne_eq,
    not_true_eq_false, if_false, StateRecord.headerAt_payloadSize, length, if_neg inside, checksum,
    StateRecord.headerAt_payloadChecksum, if_true, StateRecord.viewAt, StateRecord.size,
    StateRecord.headerAt_schemaVersion, Nat.add_assoc]
  rfl

/-- The views of the records of states. -/
def viewsAt : ℕ → List StateRecord → List CheckpointRecordView :=
  viewsFrom StateRecord.size StateRecord.viewAt

theorem viewsAt_states {states : List StateRecord}
    (stand : stateFormat.SeqAt artifact offset states) (valid : ∀ state ∈ states, state.valid) :
    (viewsAt offset states).map (·.state artifact) = states :=
  viewsFrom_map stateFormat StateAt.view stand valid

def CheckpointRecordView.spans (view : CheckpointRecordView) : List Span :=
  [view.name, view.payload]

/-- The name and the payload lie in the bytes of the record. -/
theorem StateRecord.viewAt_spans {state : StateRecord} (valid : state.valid) :
    (state.viewAt offset).spans.Pairwise Span.Before ∧
      ∀ span ∈ (state.viewAt offset).spans,
        offset ≤ span.offset ∧ span.offset + span.size ≤ offset + state.size := by
  have bound := (validIdentifier_iff.mp (StateRecord.validIdentifier_name valid)).2.1
  unfold identifierCapacity at bound
  simp only [CheckpointRecordView.spans, StateRecord.viewAt, List.pairwise_cons,
    List.forall_mem_cons, Span.Before, StateRecord.size, checkpointRecordHeaderSize]
  refine ⟨⟨⟨by omega, by simp⟩, by simp⟩, ⟨by omega, by omega⟩, ⟨by omega, by omega⟩, by simp⟩

end Cursor

/-! ## Round trip and canonicity -/

/-- The cursor, started at the first record, returns these views, stands at the end after them and
returns nothing more. -/
def CheckpointReads (artifact : List UInt8) (metadata : CheckpointMetadata)
    (views : List CheckpointRecordView) : Prop :=
  readCheckpointRecords artifact metadata metadata.stateCount.toNat {} =
      some (views, ⟨artifact.length, metadata.stateCount.toNat⟩) ∧
    (nextCheckpointRecord artifact metadata
      ⟨artifact.length, metadata.stateCount.toNat⟩).1 = none

namespace CheckpointParsable

variable {artifact output : List UInt8} {maxBytes maxStates : ℕ} {metadata : CheckpointMetadata}
  {states : List StateRecord}

theorem reads (ok : CheckpointParsable artifact maxBytes maxStates metadata states) :
    CheckpointReads artifact metadata (viewsAt checkpointHeaderSize states) := by
  refine ⟨?_, ?_⟩
  · have walk := readCount_eq stateFormat CheckpointRecordCursor.mk
      (fun at_ valid more => nextCheckpointRecord_eq at_ valid ok.small more) ok.format.states
      ok.valid (show 0 + states.length ≤ metadata.stateCount.toNat by rw [ok.stateCount]; omega)
    rw [Nat.zero_add, ← ok.stateCount] at walk
    exact walk
  · simp [nextCheckpointRecord]

/-- Encoding what was parsed writes the same bytes. -/
theorem encode (ok : CheckpointParsable artifact maxBytes maxStates metadata states)
    (room : artifact.length ≤ output.length) :
    (encodeCheckpointArtifact metadata states maxBytes output).status = .ok ∧
      (encodeCheckpointArtifact metadata states maxBytes output).artifact = artifact := by
  have size : checkpointSize states = artifact.length := by
    rw [checkpointSize_eq, ok.format.length_eq]
  have bound := ok.bound
  have encodable : CheckpointEncodable metadata states maxBytes output.length :=
    ⟨ok.count.trans ok.stateLimit, ok.byteLimit, ok.tier, ok.buildId.1, ok.workloadId.1, ok.valid,
      by omega, by omega⟩
  exact ⟨by rw [encodable.encode_eq], encodable.format.unique ok.format⟩

end CheckpointParsable

/-- What was encoded is parsed back, if the identifiers end in zeros. -/
theorem CheckpointEncodable.parsable {metadata : CheckpointMetadata} {states : List StateRecord}
    {maxBytes maxStates : ℕ} {output : List UInt8}
    (ok : CheckpointEncodable metadata states maxBytes output.length)
    (buildId : metadata.buildId.padded) (workloadId : metadata.workloadId.padded)
    (count : states.length ≤ maxStates) (limit : maxStates ≤ artifactAbsoluteMaxRecords) :
    CheckpointParsable (encodeCheckpointArtifact metadata states maxBytes output).artifact maxBytes
      maxStates (metadata.describing
        (encodeCheckpointArtifact metadata states maxBytes output).artifact states) states := by
  have format := ok.format
  have length := format.length_eq
  rw [← checkpointSize_eq] at length
  have tier := DeterminismTier.code_ofCode ok.tier
  have twice : ∀ artifact, (metadata.describing artifact states).describing artifact states =
      metadata.describing artifact states := by
    intro artifact
    simp only [CheckpointMetadata.describing, tier]
  refine ⟨ok.bound, limit, by rw [length]; exact ok.fits, count, ok.valid, ?_,
    ⟨ok.buildId, buildId⟩, ⟨ok.workloadId, workloadId⟩, ⟨?_, format.states⟩, (twice _).symm⟩
  · simp only [CheckpointMetadata.describing, tier]
    exact ok.tier
  · rw [twice]
    exact format.header

/-- The parser looks at the identifiers as they were given to the encoder, with all their bytes. -/
theorem CheckpointEncodable.padded_of_parsed {metadata parsed : CheckpointMetadata}
    {states : List StateRecord} {maxBytes maxStates : ℕ} {output : List UInt8}
    (ok : CheckpointEncodable metadata states maxBytes output.length)
    (accepted : parseCheckpointArtifact
      (encodeCheckpointArtifact metadata states maxBytes output).artifact maxBytes maxStates =
        .ok parsed) :
    metadata.buildId.padded ∧ metadata.workloadId.padded := by
  obtain ⟨_, parsable⟩ := parseCheckpointArtifact_eq_ok.mp accepted
  have written := ok.format.header
  have read := parsable.format.header
  have buildId : parsed.buildId = metadata.buildId :=
    Identifier.ext (read.buildId.symm.trans written.buildId)
  have workloadId : parsed.workloadId = metadata.workloadId :=
    Identifier.ext (read.workloadId.symm.trans written.workloadId)
  exact ⟨buildId ▸ parsable.buildId.2, workloadId ▸ parsable.workloadId.2⟩

/-- Checkpoints go round. What the encoder writes is parsed to the caller's metadata, with the
cursor returning the states, exactly if both identifiers are padded with zeros; what the parser
accepts is read to its end, by spans that do not touch, and encoded to the same bytes. -/
theorem checkpoint_round_trip (maxBytes maxStates : ℕ) :
    (∀ (metadata : CheckpointMetadata) (states : List StateRecord) (output : List UInt8),
      states.length ≤ maxStates → maxStates ≤ artifactAbsoluteMaxRecords →
      (encodeCheckpointArtifact metadata states maxBytes output).status = .ok →
      ((∃ parsed views,
        parseCheckpointArtifact (encodeCheckpointArtifact metadata states maxBytes output).artifact
          maxBytes maxStates = .ok parsed ∧
        parsed = metadata.describing
          (encodeCheckpointArtifact metadata states maxBytes output).artifact states ∧
        CheckpointReads (encodeCheckpointArtifact metadata states maxBytes output).artifact parsed
          views ∧
        views.map (·.state (encodeCheckpointArtifact metadata states maxBytes output).artifact) =
          states) ↔
        metadata.buildId.padded ∧ metadata.workloadId.padded)) ∧
    ∀ (artifact : List UInt8) (parsed : CheckpointMetadata),
      parseCheckpointArtifact artifact maxBytes maxStates = .ok parsed →
      ∃ views, CheckpointReads artifact parsed views ∧
        (∀ span ∈ views.flatMap (·.spans), span.Inside artifact) ∧
        (views.flatMap (·.spans)).Pairwise Span.Before ∧
        ∀ output : List UInt8, artifact.length ≤ output.length →
          (encodeCheckpointArtifact parsed (views.map (·.state artifact)) maxBytes output).status =
              .ok ∧
            (encodeCheckpointArtifact parsed (views.map (·.state artifact)) maxBytes
              output).artifact = artifact := by
  refine ⟨?_, ?_⟩
  · intro metadata states output count limit ok
    have encodable := encodable_of_status ok
    constructor
    · rintro ⟨parsed, _, accepted, -⟩
      exact encodable.padded_of_parsed accepted
    · rintro ⟨buildId, workloadId⟩
      have parsable := encodable.parsable buildId workloadId count limit
      exact ⟨_, _, parseCheckpointArtifact_eq_ok.mpr ⟨states, parsable⟩, rfl, parsable.reads,
        viewsAt_states parsable.format.states parsable.valid⟩
  · intro artifact parsed accepted
    obtain ⟨states, parsable⟩ := parseCheckpointArtifact_eq_ok.mp accepted
    obtain ⟨ordered, within⟩ := viewsFrom_spans stateFormat
      (fun _ valid => StateRecord.viewAt_spans valid) parsable.format.states parsable.valid
    refine ⟨_, parsable.reads, fun span member => (within span member).2, ordered, ?_⟩
    intro output room
    rw [viewsAt_states parsable.format.states parsable.valid]
    exact parsable.encode room

/-- The identifier `b`, with one byte after its terminator. -/
def identifierWithTail (tail : UInt8) : Identifier :=
  ⟨[98, 0, tail] ++ List.replicate 61 0, rfl⟩

theorem checkpoint_round_trip_one_state :
    ∃ parsed views, parseCheckpointArtifact (encodeCheckpointArtifact
          { buildId := identifierWithTail 0, workloadId := identifierWithTail 0 }
          [⟨[115], 1, [1, 2, 3]⟩] 1024 (List.replicate 400 7)).artifact 1024 1 = .ok parsed ∧
      CheckpointReads (encodeCheckpointArtifact
          { buildId := identifierWithTail 0, workloadId := identifierWithTail 0 }
          [⟨[115], 1, [1, 2, 3]⟩] 1024 (List.replicate 400 7)).artifact parsed views := by
  obtain ⟨parsed, views, accepted, -, reads, -⟩ := ((checkpoint_round_trip 1024 1).1
    { buildId := identifierWithTail 0, workloadId := identifierWithTail 0 }
    [⟨[115], 1, [1, 2, 3]⟩] (List.replicate 400 7) (by decide) (by decide) (by decide +kernel)).mpr
    (by decide +kernel)
  obtain ⟨_, _⟩ := (checkpoint_round_trip 1024 1).2 _ _ accepted
  exact ⟨parsed, views, accepted, reads⟩

/-- The encoder looks at an identifier up to its terminator and copies all of its bytes; the parser
wants zeros there. -/
theorem checkpoint_with_tail_rejected :
    (encodeCheckpointArtifact
        { buildId := identifierWithTail 0, workloadId := identifierWithTail 1 } [] 256
        (List.replicate 256 0)).status = .ok ∧
      parseCheckpointArtifact (encodeCheckpointArtifact
        { buildId := identifierWithTail 0, workloadId := identifierWithTail 1 } [] 256
        (List.replicate 256 0)).artifact 256 0 = .error .invalidArtifact := by
  decide +kernel

end RtRuntime
