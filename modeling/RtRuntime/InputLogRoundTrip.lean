import RtRuntime.InputLogFormat

/-!
# Input logs, written and read

The parser accepts exactly the bytes that `InputLogFormat` describes for frames in increasing order,
and the record cursor walks over the records it has accepted.
-/

namespace RtRuntime

open List

/-! ## The encoder's checks -/

/-- The size of a log of these records. -/
def inputLogSize (records : List ReplayInputRecord) : ℕ :=
  inputLogHeaderSize + records.length * inputLogRecordHeaderSize + inputTotal records

theorem inputTotal_cons (record : ReplayInputRecord) (records : List ReplayInputRecord) :
    inputTotal (record :: records) = record.payload.length + inputTotal records := by
  simp [inputTotal]

theorem inputLogSize_eq (records : List ReplayInputRecord) :
    inputLogSize records = inputLogHeaderSize + (records.map ReplayInputRecord.size).sum := by
  have sums : records.length * inputLogRecordHeaderSize + inputTotal records =
      (records.map ReplayInputRecord.size).sum := by
    induction records with
    | nil => rfl
    | cons record records ih =>
      rw [map_cons, sum_cons, ← ih, inputTotal_cons, length_cons,
        ReplayInputRecord.size]
      ring
  rw [inputLogSize, Nat.add_assoc, sums]

variable {records : List ReplayInputRecord}

/-- The first pass passes over valid records in increasing order. -/
theorem countInputs_eq_some {previous : Option UInt64} {total bytes : ℕ} (small : total ≤ u64Max) :
    countInputs records previous total = some bytes ↔
      (∀ record ∈ records, record.Valid) ∧ FramesAfter previous records ∧
        total + inputTotal records ≤ u64Max ∧ bytes = total + inputTotal records := by
  induction records generalizing previous total with
  | nil =>
    simp only [countInputs, Option.some.injEq]
    constructor
    · rintro rfl
      exact ⟨by simp, trivial, small, rfl⟩
    · rintro ⟨-, -, -, rfl⟩
      rfl
  | cons record records ih =>
    have checks : ¬ (record.frame.delta < 0 ∨ record.payload.length > 2 ^ 32 - 1 ∨
        previous.any (record.frame.frameIndex ≤ ·)) ↔
        record.Valid ∧ ∀ frame ∈ previous, frame < record.frame.frameIndex := by
      rw [not_or, not_or, ReplayInputRecord.Valid, and_assoc]
      refine and_congr Int64.not_lt (and_congr (by omega) ?_)
      cases previous <;> simp [UInt64.not_le]
    rw [countInputs, inputTotal_cons]
    by_cases fails : record.frame.delta < 0 ∨ record.payload.length > 2 ^ 32 - 1 ∨
        previous.any (record.frame.frameIndex ≤ ·)
    · rw [if_pos fails]
      constructor
      · exact nofun
      · rintro ⟨all, after, -⟩
        exact absurd fails (checks.mpr ⟨all record mem_cons_self, after.1⟩)
    · rw [if_neg fails, Option.bind_eq_some_iff]
      obtain ⟨valid, first⟩ := checks.mp fails
      constructor
      · rintro ⟨sum, added, rest⟩
        obtain ⟨fits, rfl⟩ := (checkedArtifactAdd_eq_some small).mp added
        obtain ⟨all, after, bound, rfl⟩ := (ih fits).mp rest
        refine ⟨?_, ⟨first, after⟩, by omega, by omega⟩
        simpa [valid] using all
      · rintro ⟨all, after, bound, rfl⟩
        refine ⟨_, (checkedArtifactAdd_eq_some small).mpr ⟨by omega, rfl⟩, ?_⟩
        exact (ih (by omega)).mpr ⟨(forall_mem_cons.mp all).2, after.2, by omega, by omega⟩

/-- What the encoder asks for before it writes. -/
structure InputLogEncodable (metadata : InputLogMetadata) (records : List ReplayInputRecord)
    (maxRecords maxBytes outputSize : ℕ) : Prop where
  count : records.length ≤ maxRecords
  recordLimit : maxRecords ≤ artifactAbsoluteMaxRecords
  byteLimit : maxBytes ≤ artifactAbsoluteMaxBytes
  tier : validTier metadata.determinismTier.code
  workloadId : validIdentifier metadata.workloadId.view
  valid : ∀ record ∈ records, record.Valid
  frames : FramesAfter none records
  fits : inputLogSize records ≤ maxBytes
  room : inputLogSize records ≤ outputSize

variable {metadata : InputLogMetadata} {maxRecords maxBytes : ℕ}

/-- A successful call has passed the checks. -/
theorem inputLogEncodable_of_status {output : List UInt8}
    (ok : (encodeInputLogArtifact metadata records maxRecords maxBytes output).status = .ok) :
    InputLogEncodable metadata records maxRecords maxBytes output.length := by
  unfold encodeInputLogArtifact at ok
  split at ok
  case isTrue => cases ok
  case isFalse checks =>
    push Not at checks
    obtain ⟨count, -, -, recordLimit, byteLimit, -, tier, workloadId⟩ := checks
    split at ok
    case h_1 => cases ok
    case h_2 payloadBytes counted =>
      obtain ⟨valid, frames, -, rfl⟩ := (countInputs_eq_some (by simp)).mp counted
      split at ok
      case h_1 => cases ok
      case h_2 required sized =>
        obtain ⟨-, size⟩ := (requiredBytes_eq_some (by decide)).mp sized
        rw [Nat.zero_add] at size
        change required = inputLogSize records at size
        split at ok
        case isTrue => cases ok
        case isFalse room =>
          push Not at room
          exact ⟨count, recordLimit, byteLimit, tier, workloadId, valid, frames, size ▸ room.1,
            size ▸ room.2⟩

namespace InputLogEncodable

variable {metadata : InputLogMetadata} {records : List ReplayInputRecord}
  {maxRecords maxBytes : ℕ} {output : List UInt8}

section

variable (ok : InputLogEncodable metadata records maxRecords maxBytes output.length)
include ok

/-- The checks are all that is asked for. -/
theorem encode_eq : encodeInputLogArtifact metadata records maxRecords maxBytes output =
      ⟨.ok,
        { requiredBytes := inputLogSize records
          bytesWritten := inputLogSize records
          checksum := checksumExcluding (inputLogArtifact metadata records (inputTotal records)
            (inputLogSize records)) inputLogChecksumOffset 8 },
        inputLogArtifact metadata records (inputTotal records) (inputLogSize records) ++
          output.drop (inputLogSize records)⟩ := by
  obtain ⟨count, recordLimit, byteLimit, tier, workloadId, valid, frames, fits, room⟩ := ok
  have header : inputLogHeaderSize ≤ inputLogSize records := by
    unfold inputLogSize
    omega
  have small : inputLogSize records ≤ u64Max := le_u64Max_of_limits fits byteLimit
  have counted : countInputs records none 0 = some (inputTotal records) := by
    refine (countInputs_eq_some (by simp)).mpr ⟨valid, frames, ?_, by omega⟩
    unfold inputLogSize at small
    omega
  have sized : requiredBytes inputLogHeaderSize inputLogRecordHeaderSize records.length
      (inputTotal records) = some (inputLogSize records) :=
    (requiredBytes_eq_some (by decide)).mpr ⟨small, rfl⟩
  unfold encodeInputLogArtifact
  rw [if_neg, counted]
  · simp only [sized]
    rw [if_neg (by omega)]
  · unfold artifactAbsoluteMaxRecords at recordLimit ⊢
    push Not
    exact ⟨count, by omega, by omega, recordLimit, byteLimit, by omega, tier, workloadId⟩

theorem artifact_eq :
    (encodeInputLogArtifact metadata records maxRecords maxBytes output).artifact =
      inputLogArtifact metadata records (inputTotal records) (inputLogSize records) := by
  rw [ok.encode_eq, ArtifactWrite.artifact, take_append_of_le_length (by simp)]
  exact take_of_length_le (by simp)

/-- What a successful call writes is in the format. -/
theorem format :
    InputLogFormat (encodeInputLogArtifact metadata records maxRecords maxBytes output).artifact
      metadata records := by
  rw [ok.artifact_eq]
  exact inputLogFormat_inputLogArtifact ok.valid rfl (inputLogSize_eq records) ok.tier

end

end InputLogEncodable

/-! ## The parser -/

section Fields

theorem eq_zero_or_one {flags : UInt32} (small : flags ≤ 1) : flags = 0 ∨ flags = 1 := by
  rw [UInt32.le_iff_toNat_le, UInt32.toNat_one] at small
  simp only [← UInt32.toNat_inj, UInt32.toNat_zero, UInt32.toNat_one]
  omega

/-- A flag word without other bits is the flag. -/
theorem flags_le_one {flags : UInt32} : flags &&& ~~~1 = 0 ↔ flags ≤ 1 := by
  constructor
  · intro masked
    have parts : flags = (flags &&& 1) ||| (flags &&& ~~~1) := by
      apply UInt32.toBitVec_inj.mp
      simp only [UInt32.toBitVec_or, UInt32.toBitVec_and, UInt32.toBitVec_not]
      rw [← BitVec.and_or_distrib_left]
      exact BitVec.and_allOnes.symm
    rw [masked, UInt32.or_zero] at parts
    have bit := congrArg UInt32.toNat parts
    rw [UInt32.toNat_and, UInt32.toNat_one, Nat.and_one_is_mod] at bit
    rw [UInt32.le_iff_toNat_le, UInt32.toNat_one]
    omega
  · intro small
    rcases eq_zero_or_one small with rfl | rfl <;> rfl

/-- The nanoseconds that are not negative. -/
theorem toUInt64_le_nanosecondsMax {delta : Int64} :
    delta.toUInt64 ≤ nanosecondsMax ↔ 0 ≤ delta := by
  have nat : delta.toUInt64.toNat = delta.toBitVec.toNat := rfl
  have int : delta.toInt = delta.toBitVec.toInt := rfl
  have bound := delta.toBitVec.isLt
  rw [UInt64.le_iff_toNat_le, Int64.le_iff_toInt_le, nat, int, BitVec.toInt_eq_toNat_cond]
  simp only [nanosecondsMax, UInt64.reduceToNat, Int64.toInt_zero]
  split <;> omega

end Fields

section Parser

variable {artifact : List UInt8} {offset : ℕ}

/-- The loads of a record's header, field by field. -/
structure InputHeaderAt (artifact : List UInt8) (offset : ℕ) (header : InputHeader) : Prop where
  fits : offset + inputLogRecordHeaderSize ≤ artifact.length
  frameIndex : slice artifact offset 8 = leBytes 8 header.frameIndex.toNat
  deltaNs : slice artifact (offset + 8) 8 = leBytes 8 header.deltaNs.toNat
  deadlineNs : slice artifact (offset + 16) 8 = leBytes 8 header.deadlineNs.toNat
  inputType : slice artifact (offset + 24) 4 = leBytes 4 header.inputType.toNat
  payloadSize : slice artifact (offset + 28) 4 = leBytes 4 header.payloadSize.toNat
  flags : slice artifact (offset + 32) 4 = leBytes 4 header.flags.toNat
  reserved : slice artifact (offset + 36) 4 = leBytes 4 header.reserved.toNat
  payloadChecksum : slice artifact (offset + 40) 8 = leBytes 8 header.payloadChecksum.toNat

theorem loadInputHeader_eq_ok {header : InputHeader} :
    loadInputHeader artifact offset = .ok header ↔ InputHeaderAt artifact offset header := by
  simp only [loadInputHeader, bind_eq_ok, need_eq_ok, loadU32_eq_some, loadU64_eq_some]
  constructor
  · rintro ⟨frameIndex, hf, deltaNs, hd, deadlineNs, hl, inputType, ht,
      payloadSize, hp, flags, hg, reserved, hr, payloadChecksum, hc, made⟩
    cases made
    have fits : offset + 40 + 8 ≤ artifact.length :=
      fits_of_length_slice (by decide) (by rw [hc, length_leBytes])
    exact ⟨fits, hf, hd, hl, ht, hp, hg, hr, hc⟩
  · intro at_
    exact ⟨_, at_.frameIndex, _, at_.deltaNs, _, at_.deadlineNs,
      _, at_.inputType, _, at_.payloadSize, _, at_.flags,
      _, at_.reserved, _, at_.payloadChecksum, rfl⟩

/-- The header of a record. -/
@[simps] def ReplayInputRecord.header (record : ReplayInputRecord) : InputHeader where
  frameIndex := record.frame.frameIndex
  deltaNs := record.frame.delta.toUInt64
  deadlineNs := record.frame.deadlineNs.getD 0
  inputType := record.inputType
  payloadSize := UInt32.ofNat record.payload.length
  flags := if record.frame.deadlineNs.isSome then 1 else 0
  reserved := 0
  payloadChecksum := artifactChecksum record.payload

/-- What the cursor makes of a header. -/
def InputHeader.frame (header : InputHeader) : ReplayFrame :=
  { frameIndex := header.frameIndex
    delta := header.deltaNs.toInt64
    deadlineNs := if header.flags &&& 1 ≠ 0 then some header.deadlineNs else none }

theorem ReplayInputRecord.header_frame (record : ReplayInputRecord) :
    record.header.frame = record.logged.frame := by
  cases record with
  | mk frame inputType payload =>
    cases frame with
    | mk frameIndex delta deadlineNs nominalReleaseNs =>
      cases deadlineNs <;> simp [header, InputHeader.frame, logged]

theorem InputAt.header {record : ReplayInputRecord} (at_ : InputAt artifact offset record)
    (valid : record.Valid) : InputHeaderAt artifact offset record.header := by
  have fits := at_.fits
  unfold ReplayInputRecord.size at fits
  refine ⟨by omega, at_.frameIndex, at_.delta, at_.deadlineNs, at_.inputType, ?_, at_.flags,
    at_.reserved, at_.payloadChecksum⟩
  rw [at_.payloadSize, ReplayInputRecord.header_payloadSize, UInt32.toNat_ofNat_of_lt' valid.2]

/-- A header that passes the checks, with the right checksum, is that of a record. -/
theorem InputHeaderAt.record {header : InputHeader} (at_ : InputHeaderAt artifact offset header)
    (delta : header.deltaNs ≤ nanosecondsMax) (flags : header.flags ≤ 1)
    (reserved : header.reserved = 0) (deadline : header.flags &&& 1 = 0 → header.deadlineNs = 0)
    (inside : header.payloadSize.toNat ≤ artifact.length - (offset + inputLogRecordHeaderSize))
    (checksum : artifactChecksum (slice artifact (offset + inputLogRecordHeaderSize)
      header.payloadSize.toNat) = header.payloadChecksum) :
    ∃ record : ReplayInputRecord, record.Valid ∧ record.logged = record ∧
      InputAt artifact offset record ∧ header = record.header := by
  have fits := at_.fits
  have width : (slice artifact (offset + inputLogRecordHeaderSize)
      header.payloadSize.toNat).length = header.payloadSize.toNat := length_slice (by omega)
  have deadlines : header.frame.deadlineNs.getD 0 = header.deadlineNs ∧
      (if header.frame.deadlineNs.isSome then (1 : UInt32) else 0) = header.flags := by
    rcases eq_zero_or_one flags with none | some
    · have zero := deadline (by rw [none]; rfl)
      simp [InputHeader.frame, none, zero]
    · simp [InputHeader.frame, some]
  refine ⟨⟨header.frame, header.inputType, slice artifact (offset + inputLogRecordHeaderSize)
    header.payloadSize.toNat⟩, ⟨?_, ?_⟩, rfl, ?_, ?_⟩
  · exact toUInt64_le_nanosecondsMax.mp (by simpa [InputHeader.frame] using delta)
  · rw [width]
    exact header.payloadSize.toNat_lt
  · constructor
    case fits =>
      simp only [ReplayInputRecord.size, width]
      omega
    case frameIndex => exact at_.frameIndex
    case delta => exact at_.deltaNs
    case deadlineNs => rw [deadlines.1, at_.deadlineNs]
    case inputType => exact at_.inputType
    case payloadSize => rw [at_.payloadSize, width]
    case flags => rw [deadlines.2, at_.flags]
    case reserved => rw [at_.reserved, reserved]; rfl
    case payloadChecksum => rw [at_.payloadChecksum, checksum]
    case payload => rw [width]; rfl
  · simp only [ReplayInputRecord.header, deadlines, width, UInt32.ofNat_toNat, checksum]
    rw [← reserved]
    rfl

/-- The frame that the next one has to exceed. -/
def InputLogPosition.previous (position : InputLogPosition) (index : ℕ) : Option UInt64 :=
  if index = 0 then none else some position.previousFrame

/-- One turn of the parser's loop reads a valid record of a later frame. -/
theorem parseInput_eq_ok {index : ℕ} {position after : InputLogPosition}
    (small : artifact.length ≤ u64Max) (below : position.payloadTotal ≤ position.offset) :
    parseInput artifact index position = .ok after ↔
      ∃ record : ReplayInputRecord, record.Valid ∧ record.logged = record ∧
        (∀ frame ∈ position.previous index, frame < record.frame.frameIndex) ∧
        InputAt artifact position.offset record ∧
        after = ⟨position.offset + record.size, position.payloadTotal + record.payload.length,
          record.frame.frameIndex⟩ := by
  have order : ∀ frame : UInt64, ¬ (index ≠ 0 ∧ frame ≤ position.previousFrame) ↔
      ∀ before ∈ position.previous index, before < frame := by
    intro frame
    unfold InputLogPosition.previous
    by_cases first : index = 0
    · simp [first]
    · simp [first, UInt64.not_le]
  simp only [parseInput, bind_eq_ok, reject_eq_ok, need_eq_ok, loadInputHeader_eq_ok, exists_const]
  constructor
  · rintro ⟨room, header, at_, checks, inside, total, added, checksum, made⟩
    simp only [not_or, order] at checks
    obtain ⟨delta, flags, reserved, deadline, later⟩ := checks
    obtain ⟨-, rfl⟩ := (checkedArtifactAdd_eq_some (by omega)).mp added
    obtain ⟨record, valid, logged, stands, rfl⟩ := at_.record (by simpa using delta)
      (flags_le_one.mp (by simpa using flags)) (by simpa using reserved) (by simpa using deadline)
      (by omega) (by simpa using checksum)
    refine ⟨record, valid, logged, later, stands, ?_⟩
    rw [← Except.ok.inj made, ReplayInputRecord.size]
    simp only [ReplayInputRecord.header_payloadSize, ReplayInputRecord.header_frameIndex,
      UInt32.toNat_ofNat_of_lt' valid.2, Nat.add_assoc]
  · rintro ⟨record, valid, -, later, stands, rfl⟩
    have fits := stands.fits
    unfold ReplayInputRecord.size at fits
    have length := UInt32.toNat_ofNat_of_lt' valid.2
    refine ⟨by omega, record.header, stands.header valid, ?_, ?_,
      position.payloadTotal + record.payload.length, ?_, ?_, ?_⟩
    · simp only [not_or, order]
      refine ⟨?_, ?_, by simp, ?_, later⟩
      · simpa using toUInt64_le_nanosecondsMax.mpr valid.1
      · cases deadline : record.frame.deadlineNs <;> simp [deadline]
      · cases deadline : record.frame.deadlineNs <;> simp [deadline]
    · simp only [ReplayInputRecord.header_payloadSize, length]
      omega
    · simp only [ReplayInputRecord.header_payloadSize, length]
      exact (checkedArtifactAdd_eq_some (by omega)).mpr ⟨by omega, rfl⟩
    · simp only [ReplayInputRecord.header_payloadSize, ReplayInputRecord.header_payloadChecksum,
        length, not_not]
      exact congrArg artifactChecksum stands.payload
    · simp only [ReplayInputRecord.header_payloadSize, length, ReplayInputRecord.size,
        Nat.add_assoc]
      rfl

/-- The parser's loop reaches the end exactly over valid records in increasing order. -/
theorem parseInputs_eq_ok {count index total : ℕ} {position : InputLogPosition} {last : UInt64}
    (small : artifact.length ≤ u64Max) (below : position.payloadTotal ≤ position.offset) :
    parseInputs artifact count index position = .ok ⟨artifact.length, total, last⟩ ↔
      ∃ records : List ReplayInputRecord, records.length = count ∧
        (∀ record ∈ records, record.Valid ∧ record.logged = record) ∧
        FramesAfter (position.previous index) records ∧
        inputFormat.SeqAt artifact position.offset records ∧
        total = position.payloadTotal + inputTotal records ∧
        last = lastFrame position.previousFrame records := by
  induction count generalizing index position with
  | zero =>
    obtain ⟨offset, payloadTotal, previousFrame⟩ := position
    simp only [parseInputs, Except.ok.injEq, InputLogPosition.mk.injEq, length_eq_zero_iff]
    constructor
    · rintro ⟨done, rfl, rfl⟩
      exact ⟨[], rfl, by simp, trivial, done, rfl, rfl⟩
    · rintro ⟨_, rfl, -, -, done, rfl, rfl⟩
      exact ⟨done, rfl, rfl⟩
  | succ count ih =>
    simp only [parseInputs, bind_eq_ok, parseInput_eq_ok small below]
    constructor
    · rintro ⟨after, ⟨record, valid, logged, later, stands, rfl⟩, rest⟩
      obtain ⟨records, rfl, all, frames, stand, rfl, rfl⟩ :=
        (ih (by simp only [ReplayInputRecord.size]; omega)).mp rest
      refine ⟨record :: records, rfl, ?_, ⟨later, frames⟩, ⟨stands, stand⟩, ?_, ?_⟩
      · simpa [valid, logged] using all
      · rw [inputTotal_cons, Nat.add_assoc]
      · rw [lastFrame_cons]
    · rintro ⟨records, length, all, frames, stand, rfl, rfl⟩
      cases records with
      | nil => cases length
      | cons record records =>
        obtain ⟨⟨valid, logged⟩, all⟩ := forall_mem_cons.mp all
        refine ⟨_, ⟨record, valid, logged, frames.1, stand.1, rfl⟩, ?_⟩
        refine (ih (by simp only [ReplayInputRecord.size]; omega)).mpr ⟨records,
          Nat.succ.inj length, all, frames.2, stand.2, ?_, ?_⟩
        · rw [inputTotal_cons, Nat.add_assoc]
        · rw [lastFrame_cons]

/-- What the header checks ask for. -/
structure InputLogHeaderOk (artifact : List UInt8) (maxBytes maxRecords : ℕ)
    (metadata : InputLogMetadata) : Prop where
  byteLimit : maxBytes ≤ artifactAbsoluteMaxBytes
  recordLimit : maxRecords ≤ artifactAbsoluteMaxRecords
  room : inputLogHeaderSize ≤ artifact.length
  bound : artifact.length ≤ maxBytes
  header : InputLogHeaderAt artifact metadata
  schema : metadata.schemaVersion = inputLogSchemaVersion
  tier : validTier metadata.determinismTier.code
  tierCast : metadata.determinismTier = .ofCode metadata.determinismTier.code
  workloadId : validIdentifier metadata.workloadId.view ∧ metadata.workloadId.padded
  recordCount : metadata.recordCount.toNat ≤ maxRecords
  totalBytes : metadata.totalBytes.toNat = artifact.length
  payloadBytes : metadata.payloadBytes.toNat ≤ maxBytes

theorem parseInputLogHeader_eq_ok :
    parseInputLogHeader artifact maxBytes maxRecords = .ok metadata ↔
      InputLogHeaderOk artifact maxBytes maxRecords metadata := by
  simp only [parseInputLogHeader, bind_eq_ok, reject_eq_ok, need_eq_ok, exists_const,
    loadU32_eq_some, loadU64_eq_some, fixedIdentifier_eq_some]
  constructor
  · rintro ⟨bounds, schema, h8, headerSize, h12, major, h16, minor, h20,
      patch, h24, tier, h28, flags, h32, recordCount, h36,
      recordSize, h40, reserved, h44, replayId, h48, stateSchemaId, h56,
      payloadBytes, h64, totalBytes, h72, checksum, h80, first, h88,
      last, h96, workloadId, ⟨h104, hw⟩, checks, made⟩
    cases made
    push Not at bounds checks
    obtain ⟨b1, b2, b3, b4, magic⟩ := bounds
    obtain ⟨rfl, rfl, rfl, rfl, rfl, padding, valid, count, total, payload⟩ := checks
    have tierCode : (DeterminismTier.ofCode tier).code = tier :=
      DeterminismTier.code_ofCode (by simpa using valid)
    refine ⟨b1, b2, b3, b4, ?_, rfl, ?_, ?_, hw, count, total, payload⟩
    · have width : (slice artifact 168 24).length = 24 :=
        length_slice (by unfold inputLogHeaderSize at b3; omega)
      exact ⟨magic, h8, h12, h16, h20, h24, by rw [tierCode]; exact h28, h32, h36, h40, h44, h48,
        h56, h64, h72, h80, h88, h96, h104, (all_zero_iff width).mp (by simpa using padding)⟩
    · rw [tierCode]
      simpa using valid
    · rw [tierCode]
  · intro ok
    have room := ok.room
    have h := ok.header
    unfold inputLogHeaderSize at room
    refine ⟨?_, _, h.schema, _, h.headerSize,
      _, h.runtimeVersionMajor, _, h.runtimeVersionMinor,
      _, h.runtimeVersionPatch, _, h.tier, 0, h.flags,
      _, h.recordCount, _, h.recordSize, 0, h.reserved,
      _, h.replayId, _, h.stateSchemaId, _, h.payloadBytes,
      _, h.totalBytes, _, h.checksum,
      _, h.firstFrameIndex, _, h.lastFrameIndex,
      _, ⟨h.workloadId, ok.workloadId⟩, ?_, ?_⟩
    · push Not
      exact ⟨ok.byteLimit, ok.recordLimit, ok.room, ok.bound, h.magic⟩
    · push Not
      refine ⟨ok.schema, rfl, rfl, rfl, rfl, ?_, ok.tier, ok.recordCount, ok.totalBytes,
        ok.payloadBytes⟩
      exact (all_zero_iff (length_slice (by omega))).mpr h.padding
    · rw [← ok.tierCast]
      rfl

/-- What the parser accepts. -/
structure InputLogParsable (artifact : List UInt8) (maxBytes maxRecords : ℕ)
    (metadata : InputLogMetadata) (records : List ReplayInputRecord) : Prop where
  byteLimit : maxBytes ≤ artifactAbsoluteMaxBytes
  recordLimit : maxRecords ≤ artifactAbsoluteMaxRecords
  bound : artifact.length ≤ maxBytes
  count : records.length ≤ maxRecords
  valid : ∀ record ∈ records, record.Valid ∧ record.logged = record
  frames : FramesAfter none records
  tier : validTier metadata.determinismTier.code
  workloadId : validIdentifier metadata.workloadId.view ∧ metadata.workloadId.padded
  format : InputLogFormat artifact metadata records
  described : metadata = metadata.describing artifact records

namespace InputLogParsable

variable {maxBytes maxRecords : ℕ} {metadata : InputLogMetadata}
  {records : List ReplayInputRecord}

theorem recordCount (ok : InputLogParsable artifact maxBytes maxRecords metadata records) :
    metadata.recordCount.toNat = records.length := by
  rw [ok.described]
  exact UInt32.toNat_ofNat_of_lt' ((ok.count.trans ok.recordLimit).trans_lt (by decide))

theorem inputTotal_le_length (ok : InputLogParsable artifact maxBytes maxRecords metadata records) :
    inputTotal records ≤ artifact.length := by
  rw [ok.format.length_eq, ← inputLogSize_eq, inputLogSize]
  omega

end InputLogParsable

/-- The first frame is where the first record begins. -/
theorem loadU64_firstFrame {record : ReplayInputRecord}
    (stand : inputFormat.SeqAt artifact inputLogHeaderSize (record :: records)) :
    loadU64 artifact inputLogHeaderSize = some (firstFrame (record :: records)) := by
  exact loadU64_eq_some.mpr stand.1.frameIndex

/-- Frames in increasing order do not end before they begin. -/
theorem FramesAfter.first_le_last {record : ReplayInputRecord}
    (after : FramesAfter none (record :: records)) :
    record.frame.frameIndex ≤ lastFrame 0 (record :: records) := by
  rw [lastFrame_cons, lastFrame]
  cases last : records.getLast? with
  | none => exact UInt64.le_refl _
  | some final => exact UInt64.le_of_lt (after.2.lt final (mem_of_getLast? last))

/-- The checks after the loop compare the frames of the header with those of the records. -/
theorem frameChecks_iff (count : metadata.recordCount.toNat = records.length)
    (frames : FramesAfter none records)
    (stand : inputFormat.SeqAt artifact inputLogHeaderSize records) :
    (¬ (metadata.recordCount = 0 ∧ (metadata.firstFrameIndex ≠ 0 ∨ metadata.lastFrameIndex ≠ 0)) ∧
      ¬ (metadata.recordCount ≠ 0 ∧ (metadata.firstFrameIndex > metadata.lastFrameIndex ∨
        lastFrame 0 records ≠ metadata.lastFrameIndex)) ∧
      ¬ (metadata.recordCount ≠ 0 ∧
        loadU64 artifact inputLogHeaderSize ≠ some metadata.firstFrameIndex)) ↔
      metadata.firstFrameIndex = firstFrame records ∧
        metadata.lastFrameIndex = lastFrame 0 records := by
  cases records with
  | nil =>
    have none : metadata.recordCount = 0 := UInt32.toNat_inj.mp count
    simp [none, firstFrame, lastFrame]
  | cons record records =>
    have some : metadata.recordCount ≠ 0 := by
      intro zero
      rw [zero] at count
      cases count
    have ordered := frames.first_le_last
    simp only [some, loadU64_firstFrame stand, false_and, not_false_eq_true, ne_eq, true_and,
      not_or, not_not, Option.some.injEq]
    constructor
    · rintro ⟨⟨-, last⟩, first⟩
      exact ⟨first.symm, last.symm⟩
    · rintro ⟨first, last⟩
      refine ⟨⟨?_, last.symm⟩, first.symm⟩
      rw [first, last]
      exact UInt64.not_lt.mpr ordered

/-- The parser accepts exactly the byte strings in the format. -/
theorem parseInputLogArtifact_eq_ok :
    parseInputLogArtifact artifact maxBytes maxRecords = .ok metadata ↔
      ∃ records, InputLogParsable artifact maxBytes maxRecords metadata records := by
  simp only [parseInputLogArtifact, bind_eq_ok, reject_eq_ok, exists_const,
    parseInputLogHeader_eq_ok]
  constructor
  · rintro ⟨parsed, ok, checksum, ⟨reached, total, last⟩, read, ends, first, made⟩
    obtain rfl := Except.ok.inj made
    simp only [not_or, not_not] at checksum ends
    obtain ⟨rfl, totals, none, some⟩ := ends
    obtain ⟨records, length, valid, frames, stand, total_eq, rfl⟩ :=
      (parseInputs_eq_ok (le_u64Max_of_limits ok.bound ok.byteLimit) (by simp)).mp read
    obtain ⟨firstIs, lastIs⟩ :=
      (frameChecks_iff length.symm frames stand).mp ⟨by simpa using none, by simpa using some, first⟩
    have described : parsed = parsed.describing artifact records := by
      have h1 : UInt64.ofNat (inputTotal records) = parsed.payloadBytes := by
        rw [Nat.zero_add] at total_eq
        rw [← total_eq, totals, UInt64.ofNat_toNat]
      have h2 : UInt64.ofNat artifact.length = parsed.totalBytes := by
        rw [← ok.totalBytes, UInt64.ofNat_toNat]
      have h3 : UInt32.ofNat records.length = parsed.recordCount := by
        rw [length, UInt32.ofNat_toNat]
      rw [InputLogMetadata.describing, h1, h2, h3, checksum, ← firstIs, ← lastIs, ← ok.schema,
        ← ok.tierCast]
    exact ⟨records, ok.byteLimit, ok.recordLimit, ok.bound, length ▸ ok.recordCount, valid, frames,
      ok.tier, ok.workloadId, ⟨described ▸ ok.header, stand⟩, described⟩
  · rintro ⟨records, ok⟩
    have small := le_u64Max_of_limits ok.bound ok.byteLimit
    have payload := ok.inputTotal_le_length
    have count := ok.recordCount
    have total : metadata.totalBytes.toNat = artifact.length := by
      rw [ok.described]
      exact toNat_ofNat_of_le (by omega)
    have payloads : metadata.payloadBytes.toNat = inputTotal records := by
      rw [ok.described]
      exact toNat_ofNat_of_le (by omega)
    have checksum : metadata.artifactChecksum =
        checksumExcluding artifact inputLogChecksumOffset 8 := by
      rw [ok.described]
      rfl
    obtain ⟨none, some, first⟩ := (frameChecks_iff count ok.frames ok.format.records).mpr
      ⟨by rw [ok.described]; rfl, by rw [ok.described]; rfl⟩
    refine ⟨metadata, ?_, by simp [checksum],
      ⟨artifact.length, inputTotal records, lastFrame 0 records⟩, ?_, ?_, first, rfl⟩
    · refine ⟨ok.byteLimit, ok.recordLimit, ?_, ok.bound, ?_, ?_, ok.tier, ?_, ok.workloadId,
        by rw [count]; exact ok.count, total, ?_⟩
      · rw [ok.format.length_eq]
        omega
      · rw [ok.described]
        exact ok.format.header
      · rw [ok.described]
        rfl
      · exact congrArg InputLogMetadata.determinismTier ok.described
      · have bound := ok.bound
        omega
    · rw [count]
      exact (parseInputs_eq_ok small (by simp)).mpr
        ⟨records, rfl, ok.valid, ok.frames, ok.format.records, by simp, rfl⟩
    · rw [not_or, not_or, not_or]
      exact ⟨by simp, by simp [payloads], none, some⟩

end Parser

/-! ## The record cursor -/

section Cursor

variable {artifact : List UInt8} {offset index : ℕ} {metadata : InputLogMetadata}

/-- What the cursor returns for a record. -/
def ReplayInputRecord.viewAt (record : ReplayInputRecord) (offset : ℕ) : InputLogRecordView :=
  ⟨record.logged.frame, record.inputType,
    ⟨offset + inputLogRecordHeaderSize, record.payload.length⟩⟩

theorem InputAt.view {record : ReplayInputRecord} (at_ : InputAt artifact offset record)
    (valid : record.Valid ∧ record.logged = record) :
    (record.viewAt offset).record artifact = record := by
  have payload : (Span.mk (offset + inputLogRecordHeaderSize) record.payload.length).of artifact =
      record.payload := at_.payload
  rw [InputLogRecordView.record, ReplayInputRecord.viewAt, payload, valid.2]

theorem nextInputLogRecord_eq {record : ReplayInputRecord} (at_ : InputAt artifact offset record)
    (valid : record.Valid) (more : index < metadata.recordCount.toNat) :
    nextInputLogRecord artifact metadata ⟨offset, index⟩ =
      (some (record.viewAt offset), ⟨offset + record.size, index + 1⟩) := by
  have fits := at_.fits
  unfold ReplayInputRecord.size at fits
  have checksum : artifactChecksum
      ((Span.mk (offset + inputLogRecordHeaderSize) record.payload.length).of artifact) =
        artifactChecksum record.payload := congrArg artifactChecksum at_.payload
  have loaded := loadInputHeader_eq_ok.mpr (at_.header valid)
  have room : ¬ (index ≥ metadata.recordCount.toNat ∨
      artifact.length < offset + inputLogRecordHeaderSize) := by omega
  have inside : ¬ record.payload.length >
      artifact.length - (offset + inputLogRecordHeaderSize) := by omega
  have checks : ¬ (record.header.flags > 1 ∨ record.header.reserved ≠ 0 ∨
      record.header.deltaNs > nanosecondsMax) := by
    rw [not_or, not_or]
    refine ⟨?_, by simp, UInt64.not_lt.mpr (toUInt64_le_nanosecondsMax.mpr valid.1)⟩
    cases deadline : record.frame.deadlineNs <;> simp [deadline]
  have size : record.header.payloadSize.toNat = record.payload.length := UInt32.toNat_ofNat_of_lt' valid.2
  have frame := record.header_frame
  unfold InputHeader.frame at frame
  simp only [nextInputLogRecord, if_neg room, loaded, if_neg checks, size, if_neg inside, checksum,
    ReplayInputRecord.header_payloadChecksum, if_true, frame, ReplayInputRecord.viewAt,
    ReplayInputRecord.size, Nat.add_assoc]
  rfl

/-- The cursor, started at the first record, returns these views, stands at the end after them and
returns nothing more. -/
def InputLogReads (artifact : List UInt8) (metadata : InputLogMetadata)
    (views : List InputLogRecordView) : Prop :=
  readInputLogRecords artifact metadata metadata.recordCount.toNat {} =
      some (views, ⟨artifact.length, metadata.recordCount.toNat⟩) ∧
    (nextInputLogRecord artifact metadata
      ⟨artifact.length, metadata.recordCount.toNat⟩).1 = none

/-- The views of records. -/
def inputViewsAt : ℕ → List ReplayInputRecord → List InputLogRecordView :=
  viewsFrom ReplayInputRecord.size ReplayInputRecord.viewAt

theorem map_record_inputViewsAt (stand : inputFormat.SeqAt artifact offset records)
    (valid : ∀ record ∈ records, record.Valid ∧ record.logged = record) :
    (inputViewsAt offset records).map (·.record artifact) = records :=
  viewsFrom_map inputFormat InputAt.view stand valid

def InputLogRecordView.spans (view : InputLogRecordView) : List Span := [view.payload]

/-- The payload lies in the bytes of the record. -/
theorem ReplayInputRecord.viewAt_spans (record : ReplayInputRecord) :
    (record.viewAt offset).spans.Pairwise Span.Before ∧
      ∀ span ∈ (record.viewAt offset).spans,
        offset ≤ span.offset ∧ span.offset + span.size ≤ offset + record.size := by
  simp only [InputLogRecordView.spans, ReplayInputRecord.viewAt, ReplayInputRecord.size,
    pairwise_singleton, forall_mem_singleton, true_and]
  omega

end Cursor

/-! ## Round trip and canonicity -/

namespace InputLogParsable

variable {artifact output : List UInt8} {maxBytes maxRecords : ℕ} {metadata : InputLogMetadata}
  {records : List ReplayInputRecord}

theorem reads (ok : InputLogParsable artifact maxBytes maxRecords metadata records) :
    InputLogReads artifact metadata (inputViewsAt inputLogHeaderSize records) := by
  refine ⟨?_, ?_⟩
  · have walk := readCount_eq inputFormat InputLogRecordCursor.mk
      (fun at_ valid more => nextInputLogRecord_eq at_ valid more) ok.format.records
      (fun record member => (ok.valid record member).1)
      (show 0 + records.length ≤ metadata.recordCount.toNat by rw [ok.recordCount]; omega)
    rw [Nat.zero_add, ← ok.recordCount] at walk
    exact walk
  · simp [nextInputLogRecord]

/-- Encoding what was parsed writes the same bytes. -/
theorem encode (ok : InputLogParsable artifact maxBytes maxRecords metadata records)
    (room : artifact.length ≤ output.length) :
    (encodeInputLogArtifact metadata records maxRecords maxBytes output).status = .ok ∧
      (encodeInputLogArtifact metadata records maxRecords maxBytes output).artifact = artifact := by
  have size : inputLogSize records = artifact.length := by
    rw [inputLogSize_eq, ok.format.length_eq]
  have bound := ok.bound
  have encodable : InputLogEncodable metadata records maxRecords maxBytes output.length :=
    ⟨ok.count, ok.recordLimit, ok.byteLimit, ok.tier, ok.workloadId.1,
      fun record member => (ok.valid record member).1, ok.frames, by omega, by omega⟩
  exact ⟨by rw [encodable.encode_eq], encodable.format.unique ok.format⟩

end InputLogParsable

/-- What was encoded is parsed back, if the identifier ends in zeros. -/
theorem InputLogEncodable.parsable {output : List UInt8}
    (ok : InputLogEncodable metadata records maxRecords maxBytes output.length)
    (workloadId : metadata.workloadId.padded) :
    InputLogParsable
      (encodeInputLogArtifact metadata records maxRecords maxBytes output).artifact maxBytes
      maxRecords (metadata.describing (encodeInputLogArtifact metadata records maxRecords maxBytes
        output).artifact (records.map ReplayInputRecord.logged))
      (records.map ReplayInputRecord.logged) := by
  have format := ok.format.logged
  have length := ok.format.length_eq
  rw [← inputLogSize_eq] at length
  have tier := DeterminismTier.code_ofCode ok.tier
  have twice : ∀ artifact records, (metadata.describing artifact records).describing artifact
      records = metadata.describing artifact records := by
    intro artifact records
    simp only [InputLogMetadata.describing, tier]
  refine ⟨ok.byteLimit, ok.recordLimit, by rw [length]; exact ok.fits, ?_, ?_, ok.frames.logged, ?_,
    ⟨ok.workloadId, workloadId⟩, ⟨?_, format.records⟩, (twice _ _).symm⟩
  · rw [length_map]
    exact ok.count
  · intro record member
    obtain ⟨original, present, rfl⟩ := mem_map.mp member
    exact ⟨ok.valid original present, rfl⟩
  · simp only [InputLogMetadata.describing, tier]
    exact ok.tier
  · rw [twice]
    exact format.header

/-- Input logs go round, the nominal releases apart.  What the encoder writes for an identifier
padded with zeros is parsed to the caller's metadata and the cursor returns the records without
their nominal releases; what the parser accepts is read to its end, in increasing order of frames,
and encoded to the same bytes. -/
theorem input_log_round_trip (maxRecords maxBytes : ℕ) :
    (∀ (metadata : InputLogMetadata) (records : List ReplayInputRecord) (output : List UInt8),
      metadata.workloadId.padded →
      (encodeInputLogArtifact metadata records maxRecords maxBytes output).status = .ok →
      ∃ parsed views,
        parseInputLogArtifact
          (encodeInputLogArtifact metadata records maxRecords maxBytes output).artifact maxBytes
          maxRecords = .ok parsed ∧
        parsed = metadata.describing (encodeInputLogArtifact metadata records maxRecords maxBytes
          output).artifact (records.map ReplayInputRecord.logged) ∧
        InputLogReads (encodeInputLogArtifact metadata records maxRecords maxBytes output).artifact
          parsed views ∧
        views.map (·.record
          (encodeInputLogArtifact metadata records maxRecords maxBytes output).artifact) =
          records.map ReplayInputRecord.logged) ∧
    ∀ (artifact : List UInt8) (parsed : InputLogMetadata),
      parseInputLogArtifact artifact maxBytes maxRecords = .ok parsed →
      ∃ views, InputLogReads artifact parsed views ∧
        (∀ span ∈ views.flatMap (·.spans), span.Inside artifact) ∧
        (views.flatMap (·.spans)).Pairwise Span.Before ∧
        views.Pairwise (·.frame.frameIndex < ·.frame.frameIndex) ∧
        ∀ output : List UInt8, artifact.length ≤ output.length →
          (encodeInputLogArtifact parsed (views.map (·.record artifact)) maxRecords maxBytes
              output).status = .ok ∧
            (encodeInputLogArtifact parsed (views.map (·.record artifact)) maxRecords maxBytes
              output).artifact = artifact := by
  refine ⟨?_, ?_⟩
  · intro metadata records output workloadId ok
    have parsable := (inputLogEncodable_of_status ok).parsable workloadId
    exact ⟨_, _, parseInputLogArtifact_eq_ok.mpr ⟨_, parsable⟩, rfl, parsable.reads,
      map_record_inputViewsAt parsable.format.records parsable.valid⟩
  · intro artifact parsed accepted
    obtain ⟨records, parsable⟩ := parseInputLogArtifact_eq_ok.mp accepted
    have shown := map_record_inputViewsAt parsable.format.records parsable.valid
    obtain ⟨ordered, within⟩ := viewsFrom_spans inputFormat
      (fun {_ record} _ _ => record.viewAt_spans) parsable.format.records parsable.valid
    refine ⟨_, parsable.reads, fun span member => (within span member).2, ordered, ?_, ?_⟩
    · have frames := parsable.frames.pairwise
      rw [← shown, pairwise_map] at frames
      exact frames
    · intro output room
      rw [shown]
      exact parsable.encode room

theorem input_log_round_trip_two_records :
    ∃ parsed views, parseInputLogArtifact (encodeInputLogArtifact
          { workloadId := ⟨98 :: List.replicate 63 0, rfl⟩ }
          [⟨{ frameIndex := 3, delta := 5 }, 1, [1, 2]⟩,
            ⟨{ frameIndex := 4, deadlineNs := some 9, nominalReleaseNs := some 7 }, 2, []⟩]
          2 1024 (List.replicate 400 7)).artifact 1024 2 = .ok parsed ∧
      InputLogReads (encodeInputLogArtifact
          { workloadId := ⟨98 :: List.replicate 63 0, rfl⟩ }
          [⟨{ frameIndex := 3, delta := 5 }, 1, [1, 2]⟩,
            ⟨{ frameIndex := 4, deadlineNs := some 9, nominalReleaseNs := some 7 }, 2, []⟩]
          2 1024 (List.replicate 400 7)).artifact parsed views := by
  obtain ⟨parsed, views, accepted, -, reads, -⟩ := (input_log_round_trip 2 1024).1
    { workloadId := ⟨98 :: replicate 63 0, rfl⟩ }
    [⟨{ frameIndex := 3, delta := 5 }, 1, [1, 2]⟩,
      ⟨{ frameIndex := 4, deadlineNs := some 9, nominalReleaseNs := some 7 }, 2, []⟩]
    (replicate 400 7) (by decide +kernel) (by decide +kernel)
  obtain ⟨_, _⟩ := (input_log_round_trip 2 1024).2 _ _ accepted
  exact ⟨parsed, views, accepted, reads⟩

/-- The record that is read back has lost its nominal release, and a byte after the terminator of
the identifier makes the parser refuse what the encoder has written. -/
theorem input_log_not_exact :
    ((encodeInputLogArtifact { workloadId := ⟨98 :: List.replicate 63 0, rfl⟩ }
          [⟨{ frameIndex := 3, nominalReleaseNs := some 7 }, 1, []⟩] 1 240
          (List.replicate 240 0)).status = .ok ∧
      ((parseInputLogArtifact (encodeInputLogArtifact
          { workloadId := ⟨98 :: List.replicate 63 0, rfl⟩ }
          [⟨{ frameIndex := 3, nominalReleaseNs := some 7 }, 1, []⟩] 1 240
          (List.replicate 240 0)).artifact 240 1).toOption.bind fun parsed =>
        (readInputLogRecords (encodeInputLogArtifact
            { workloadId := ⟨98 :: List.replicate 63 0, rfl⟩ }
            [⟨{ frameIndex := 3, nominalReleaseNs := some 7 }, 1, []⟩] 1 240
            (List.replicate 240 0)).artifact parsed 1 {}).map
          fun read => read.1.map (·.frame)) =
        some [{ frameIndex := 3, nominalReleaseNs := none }]) ∧
    (encodeInputLogArtifact { workloadId := ⟨[98, 0, 1] ++ List.replicate 61 0, rfl⟩ } [] 0 192
        (List.replicate 192 0)).status = .ok ∧
      parseInputLogArtifact (encodeInputLogArtifact
        { workloadId := ⟨[98, 0, 1] ++ List.replicate 61 0, rfl⟩ } [] 0 192
        (List.replicate 192 0)).artifact 192 0 = .error .invalidArtifact := by
  decide +kernel

end RtRuntime
