import RtRuntime.CheckpointRoundTrip
import RtRuntime.InputLogRoundTrip
import RtRuntime.RuntimeConfig

/-!
# Checkpoints and input logs of a runtime

`write_checkpoint`, `restore_checkpoint`, `write_input_log` and `replay`.  A checkpoint has a record
for each registered state, and after them one for each internal state whose policy is set.  How an
internal state is turned into bytes, checked and rebuilt is an `InternalCodec` over the internal
state `σ` of the runtime as a whole.

A call that fails stores a text and returns its status, here together with the runtime it leaves
behind.  The claim of the live controls that guards a call is given back at its end and is only seen
when it cannot be had.
-/

namespace RtRuntime

/-! ## Memory -/

/-- `std::span` of bytes: an address and what stands there. -/
structure ByteSpan where
  address : ℕ
  bytes : List UInt8
  deriving DecidableEq, Repr

/-- `byte_spans_overlap`. -/
def ByteSpan.overlaps (left right : ByteSpan) : Bool :=
  if left.bytes = [] ∨ right.bytes = [] then false
  else if left.bytes.length > u64Max - left.address ∨
      right.bytes.length > u64Max - right.address then true
  else left.address < right.address + right.bytes.length ∧
    right.address < left.address + left.bytes.length

/-! ## The runtime -/

inductive RuntimeState where
  | configuring
  | finalized
  | running
  | stopped
  deriving DecidableEq, Repr

structure RegisteredState where
  name : Identifier
  schemaVersion : UInt32
  storage : ByteSpan
  deriving DecidableEq, Repr

/-- The internal states of a checkpoint, in the order of their records. -/
inductive InternalKind where
  | rateDispatch
  | mixedRate
  | liveControl
  deriving DecidableEq, Repr

namespace InternalKind

/-- `rtfw.rate-dispatch`, `rtfw.mixed-rate` and `rtfw.live-control`. -/
def name : InternalKind → List UInt8
  | rateDispatch =>
    [114, 116, 102, 119, 46, 114, 97, 116, 101, 45, 100, 105, 115, 112, 97, 116, 99, 104]
  | mixedRate => [114, 116, 102, 119, 46, 109, 105, 120, 101, 100, 45, 114, 97, 116, 101]
  | liveControl =>
    [114, 116, 102, 119, 46, 108, 105, 118, 101, 45, 99, 111, 110, 116, 114, 111, 108]

def schemaVersion : InternalKind → UInt32
  | rateDispatch | mixedRate | liveControl => 1

def malformedText : InternalKind → String
  | rateDispatch => "active checkpoint state is malformed or incompatible"
  | mixedRate => "mixed-rate checkpoint state is malformed or incompatible"
  | liveControl => "live-control checkpoint state is malformed or incompatible"

/-- The mixed-rate state has no text of its own: its rebuild returns nothing. -/
def rebuildText : InternalKind → String
  | rateDispatch => "active checkpoint store rebuild failed"
  | mixedRate => ""
  | liveControl => "live-control checkpoint store rebuild failed"

end InternalKind

/-- How an internal state goes into a record and comes out of one. -/
structure InternalCodec (σ : Type) where
  /-- the payload of the record, without which the provider fails -/
  sync : σ → Option (List UInt8)
  /-- the check before anything is changed -/
  validate : σ → List UInt8 → Bool
  /-- the rebuild, with what it returns -/
  apply : σ → List UInt8 → σ × Bool

structure SnapshotRuntime (σ : Type) where
  config : RuntimeConfig
  state : RuntimeState := .finalized
  providerCallbackActive : Bool := false
  inStep : Bool := false
  inPeriodicRun : Bool := false
  inReplay : Bool := false
  stopPending : Bool := false
  laneCleanupPending : Bool := false
  /-- a ticket of `active_device_tickets` is valid -/
  ticketsOutstanding : Bool := false
  activeReplayRestoreAllowed : Bool := false
  /-- `host_claimed` -/
  liveControlClaimed : Bool := false
  /-- what `claim_all` would return -/
  liveControlClaimable : Bool := true
  policySet : InternalKind → Bool := fun _ => false
  codec : InternalKind → InternalCodec σ
  /-- `active_faulted`, which is a part of the internal state -/
  activeFaulted : σ → Bool := fun _ => false
  /-- `record_checkpoint` -/
  recordCheckpoint : σ → UInt64 → σ := fun internal _ => internal
  configId : UInt64 := 0
  replayId : UInt64 := 0
  graphId : UInt64 := 0
  stateSchemaId : UInt64 := 0
  buildId : Identifier
  states : List RegisteredState := []
  internal : σ
  error : String := ""

/-- A call that fails carries its status and the runtime it leaves behind. -/
abbrev Attempt (σ α : Type) : Type := Except (Status × SnapshotRuntime σ) α

/-- The status that a call returns. -/
def Attempt.status {σ α : Type} : Attempt σ α → Status
  | .ok _ => .ok
  | .error failure => failure.1

/-- The record of a registered state. -/
def RegisteredState.record (state : RegisteredState) : StateRecord :=
  ⟨state.name.view, state.schemaVersion, state.storage.bytes⟩

/-- An input record as the caller holds it, with the address of its payload. -/
structure HostInputRecord where
  record : ReplayInputRecord
  payloadAddress : ℕ
  deriving DecidableEq, Repr

def HostInputRecord.payload (host : HostInputRecord) : ByteSpan :=
  ⟨host.payloadAddress, host.record.payload⟩

namespace SnapshotRuntime

variable {σ : Type} (runtime : SnapshotRuntime σ)

def fail (status : Status) (text : String) : Status × SnapshotRuntime σ :=
  (status, { runtime with error := text })

def clearError : SnapshotRuntime σ := { runtime with error := "" }

/-- `observability.workload_id`: the array of the configuration, with all its bytes. -/
def workloadId : Identifier := runtime.config.workloadId

/-- A step, a periodic run or a replay is under way. -/
def executing : Bool := runtime.inStep || runtime.inPeriodicRun || runtime.inReplay

/-- The live controls have to be claimed and cannot be. -/
def liveControlBusy : Bool :=
  runtime.policySet .liveControl && !runtime.liveControlClaimed && !runtime.liveControlClaimable

/-- A buffer of the caller overlaps the storage of a registered state. -/
def overlapsState (buffer : ByteSpan) : Bool :=
  runtime.states.any fun state => buffer.overlaps state.storage

/-- The internal states that have a record. -/
def internalKinds : List InternalKind :=
  [.rateDispatch, .mixedRate, .liveControl].filter runtime.policySet

def checkpointStateCount : ℕ := runtime.states.length + runtime.internalKinds.length

/-! ## Writing a checkpoint -/

/-- The record of an internal state. -/
def internalRecord (kind : InternalKind) : Option StateRecord :=
  ((runtime.codec kind).sync runtime.internal).map (StateRecord.mk kind.name kind.schemaVersion)

/-- What `provide_state` hands out for the indices below the count, if it never fails. -/
def provideStates : Option (List StateRecord) :=
  (runtime.internalKinds.mapM runtime.internalRecord).map
    (runtime.states.map RegisteredState.record ++ ·)

/-- The metadata of a checkpoint of this runtime. -/
def checkpointMetadata (checkpointFrameIndex : UInt64) : CheckpointMetadata where
  determinismTier := runtime.config.determinismTier
  configId := runtime.configId
  replayId := runtime.replayId
  graphId := runtime.graphId
  stateSchemaId := runtime.stateSchemaId
  checkpointFrameIndex := checkpointFrameIndex
  buildId := runtime.buildId
  workloadId := runtime.workloadId

/-- `encode_checkpoint_artifact` with `provide_state`; a provider that fails is an argument that the
encoder refuses. -/
def encodeCheckpoint (checkpointFrameIndex : UInt64) (output : List UInt8) : ArtifactWrite :=
  match runtime.provideStates with
  | none => ⟨.invalidArgument, {}, output⟩
  | some states =>
    encodeCheckpointArtifact (runtime.checkpointMetadata checkpointFrameIndex) states
      runtime.config.snapshotMaxBytes output

/-- The checks of `write_checkpoint`. -/
def admitCheckpoint (output : ByteSpan) : Attempt σ Unit := do
  reject runtime.providerCallbackActive (.invalidState, runtime)
  reject (runtime.state = .configuring)
    (runtime.fail .invalidState "checkpoint export requires a finalized runtime")
  reject runtime.executing
    (runtime.fail .invalidState "checkpoint export cannot run during execution")
  reject (runtime.stopPending || runtime.laneCleanupPending || runtime.ticketsOutstanding)
    (runtime.fail .invalidState "mixed-rate checkpoint requires a quiescent release boundary")
  reject runtime.liveControlBusy
    (runtime.fail .invalidState "live-control checkpoint claim is busy; retry")
  reject (runtime.overlapsState output)
    (runtime.fail .invalidArgument "checkpoint output cannot overlap registered state")

/-- `write_checkpoint`. -/
def writeCheckpoint (checkpointFrameIndex : UInt64) (output : ByteSpan) :
    ArtifactWrite × SnapshotRuntime σ :=
  match runtime.admitCheckpoint output with
  | .error (status, runtime) => (⟨status, {}, output.bytes⟩, runtime)
  | .ok () =>
    let write := runtime.encodeCheckpoint checkpointFrameIndex output.bytes
    if write.status ≠ .ok then
      (write, (runtime.fail write.status
        (if write.status = .capacityExceeded then "checkpoint output buffer is too small"
          else "checkpoint encoding failed")).2)
    else
      (write, { runtime with
        internal :=
          if runtime.policySet .liveControl then
            runtime.recordCheckpoint runtime.internal write.result.checksum
          else runtime.internal
        error := "" })

/-! ## Restoring a checkpoint -/

/-- The checks of `restore_checkpoint` before it looks at the artifact. -/
def admitRestore (checkpoint : ByteSpan) : Attempt σ Unit := do
  reject runtime.providerCallbackActive (.invalidState, runtime)
  reject (runtime.state = .configuring)
    (runtime.fail .invalidState "checkpoint restore requires a finalized runtime")
  reject runtime.stopPending
    (runtime.fail .invalidState "device teardown is pending; retry stop")
  reject (runtime.policySet .rateDispatch && runtime.activeFaulted runtime.internal &&
      !runtime.activeReplayRestoreAllowed)
    (runtime.fail .invalidState "active policy failure is terminal for checkpoint restore")
  reject runtime.executing
    (runtime.fail .invalidState "checkpoint restore cannot run during execution")
  reject runtime.liveControlBusy
    (runtime.fail .invalidState "live-control restore claim is busy; retry")
  reject (runtime.overlapsState checkpoint)
    (runtime.fail .invalidArgument "checkpoint input cannot overlap registered state")

/-- The configuration counts for the identity where nothing is promised about schedules. -/
def sameConfigId (configId : UInt64) : Prop :=
  runtime.config.determinismTier = .unspecified → configId = runtime.configId

instance (configId : UInt64) : Decidable (runtime.sameConfigId configId) :=
  inferInstanceAs (Decidable (_ → _))

/-- The artifact is one of this runtime. -/
def checkpointMatches (parsed : CheckpointMetadata) : Prop :=
  parsed.runtimeVersionMajor = versionMajor ∧
    parsed.determinismTier = runtime.config.determinismTier ∧
    parsed.replayId = runtime.replayId ∧ parsed.graphId = runtime.graphId ∧
    parsed.stateSchemaId = runtime.stateSchemaId ∧ parsed.workloadId = runtime.workloadId ∧
    runtime.sameConfigId parsed.configId

instance (parsed : CheckpointMetadata) : Decidable (runtime.checkpointMatches parsed) :=
  inferInstanceAs (Decidable (_ ∧ _))

variable (checkpoint : List UInt8) (parsed : CheckpointMetadata)

/-- The parser's verdict and the identity of the artifact. -/
def identifyCheckpoint : Attempt σ CheckpointMetadata := do
  let parsed ← (parseCheckpointArtifact checkpoint runtime.config.snapshotMaxBytes
    runtime.checkpointStateCount).mapError fun status =>
      runtime.fail status "checkpoint validation failed before state restore"
  reject (¬ (runtime.checkpointMatches parsed ∧
      parsed.stateCount.toNat = runtime.checkpointStateCount))
    (runtime.fail .incompatibleArtifact
      "checkpoint identity does not match the finalized runtime")
  return parsed

/-- The first pass: the next record is that of the registered state. -/
def matchState (cursor : CheckpointRecordCursor) (state : RegisteredState) :
    Attempt σ CheckpointRecordCursor :=
  let next := nextCheckpointRecord checkpoint parsed cursor
  match next.1 with
  | none => .error (runtime.fail .incompatibleArtifact
      "checkpoint state schema does not match registration")
  | some record =>
    if record.name.of checkpoint ≠ state.name.view ∨
        record.schemaVersion ≠ state.schemaVersion ∨
        record.payload.size ≠ state.storage.bytes.length then
      .error (runtime.fail .incompatibleArtifact
        "checkpoint state schema does not match registration")
    else .ok next.2

/-- The next record is that of the internal state, and its payload passes the check. -/
def matchInternal (position : CheckpointRecordCursor × List (InternalKind × List UInt8))
    (kind : InternalKind) :
    Attempt σ (CheckpointRecordCursor × List (InternalKind × List UInt8)) :=
  let next := nextCheckpointRecord checkpoint parsed position.1
  match next.1 with
  | none => .error (runtime.fail .incompatibleArtifact kind.malformedText)
  | some record =>
    if record.name.of checkpoint ≠ kind.name ∨ record.schemaVersion ≠ kind.schemaVersion ∨
        ¬ (runtime.codec kind).validate runtime.internal (record.payload.of checkpoint) then
      .error (runtime.fail .incompatibleArtifact kind.malformedText)
    else .ok (next.2, position.2 ++ [(kind, record.payload.of checkpoint)])

/-- An internal state is rebuilt from its record. -/
def applyInternal (runtime : SnapshotRuntime σ) (record : InternalKind × List UInt8) :
    Attempt σ (SnapshotRuntime σ) :=
  let rebuilt := (runtime.codec record.1).apply runtime.internal record.2
  let after := { runtime with internal := rebuilt.1 }
  if rebuilt.2 then .ok after
  else .error (after.fail .internalError record.1.rebuildText)

/-- The second pass: the payloads are copied over the storages.  A record that is not there would
leave its storage as it is. -/
def copyStates : List RegisteredState → CheckpointRecordCursor → List RegisteredState
  | [], _ => []
  | state :: states, cursor =>
    let next := nextCheckpointRecord checkpoint parsed cursor
    let payload := (next.1.map fun record => record.payload.of checkpoint).getD []
    { state with
      storage := { state.storage with bytes := overwrite state.storage.bytes 0 payload } } ::
      copyStates states next.2

/-- Everything in `restore_checkpoint` that comes before the first change. -/
def examineCheckpoint (checkpoint : ByteSpan) :
    Attempt σ (CheckpointMetadata × List (InternalKind × List UInt8)) := do
  runtime.admitRestore checkpoint
  let parsed ← runtime.identifyCheckpoint checkpoint.bytes
  let cursor ← runtime.states.foldlM (runtime.matchState checkpoint.bytes parsed) {}
  let position ← runtime.internalKinds.foldlM (runtime.matchInternal checkpoint.bytes parsed)
    (cursor, [])
  return (parsed, position.2)

/-- `restore_checkpoint`, with the metadata it stores for the caller. -/
def restoreCheckpoint (checkpoint : ByteSpan) :
    Attempt σ (CheckpointMetadata × SnapshotRuntime σ) := do
  let (parsed, records) ← runtime.examineCheckpoint checkpoint
  let rebuilt ← records.foldlM applyInternal runtime
  return (parsed, { rebuilt with
    states := copyStates checkpoint.bytes parsed rebuilt.states {}
    error := "" })

/-! ## Writing an input log -/

/-- The metadata of an input log of this runtime. -/
def inputLogMetadata : InputLogMetadata where
  determinismTier := runtime.config.determinismTier
  replayId := runtime.replayId
  stateSchemaId := runtime.stateSchemaId
  workloadId := runtime.workloadId

/-- The checks of `write_input_log`; `array` are the bytes of the records themselves. -/
def admitInputLog (array : ByteSpan) (records : List HostInputRecord) (output : ByteSpan) :
    Attempt σ Unit := do
  reject runtime.providerCallbackActive (.invalidState, runtime)
  reject (runtime.state = .configuring)
    (runtime.fail .invalidState "input-log export requires a finalized runtime")
  reject (runtime.policySet .rateDispatch)
    (runtime.fail .invalidState "schema-1 input logs cannot encode active rate actions")
  reject runtime.executing
    (runtime.fail .invalidState "input-log export cannot run during execution")
  reject (output.overlaps array)
    (runtime.fail .invalidArgument "input-log output cannot overlap input records")
  reject (runtime.overlapsState output)
    (runtime.fail .invalidArgument "input-log output cannot overlap registered state")
  reject (records.any fun record => output.overlaps record.payload)
    (runtime.fail .invalidArgument "input-log output cannot overlap an input payload")

/-- `write_input_log`. -/
def writeInputLog (array : ByteSpan) (records : List HostInputRecord) (output : ByteSpan) :
    ArtifactWrite × SnapshotRuntime σ :=
  match runtime.admitInputLog array records output with
  | .error (status, runtime) => (⟨status, {}, output.bytes⟩, runtime)
  | .ok () =>
    let write := encodeInputLogArtifact runtime.inputLogMetadata (records.map (·.record))
      runtime.config.replayInputCapacity runtime.config.inputLogMaxBytes output.bytes
    if write.status ≠ .ok then
      (write, (runtime.fail write.status
        (if write.status = .capacityExceeded then
            "input-log output buffer is too small or exceeds its bound"
          else "input-log encoding failed")).2)
    else (write, runtime.clearError)

/-! ## Replay -/

/-- The checks of `replay` before it looks at the artifacts. -/
def admitReplay (inputLog : ByteSpan) : Attempt σ Unit := do
  reject runtime.providerCallbackActive (.invalidState, runtime)
  reject (runtime.state ≠ .running)
    (runtime.fail .invalidState "replay requires a running runtime")
  reject (runtime.policySet .rateDispatch) (runtime.fail .invalidState
    "schema-1 replay cannot reproduce active nominal releases or late actions")
  reject runtime.stopPending
    (runtime.fail .invalidState "device teardown is pending; retry stop")
  reject runtime.executing
    (runtime.fail .invalidState "replay requires non-reentrant host control")
  reject (runtime.overlapsState inputLog)
    (runtime.fail .invalidArgument "input log cannot overlap registered state")

/-- The input log is one of this runtime. -/
def inputLogMatches (parsed : InputLogMetadata) : Prop :=
  parsed.runtimeVersionMajor = versionMajor ∧
    parsed.determinismTier = runtime.config.determinismTier ∧
    parsed.replayId = runtime.replayId ∧ parsed.stateSchemaId = runtime.stateSchemaId ∧
    parsed.workloadId = runtime.workloadId

instance (parsed : InputLogMetadata) : Decidable (runtime.inputLogMatches parsed) :=
  inferInstanceAs (Decidable (_ ∧ _))

/-- Both artifacts are accepted; this parse counts the states against the capacity. -/
def identifyReplay (checkpoint inputLog : List UInt8) :
    Attempt σ (CheckpointMetadata × InputLogMetadata) := do
  let checkpointMetadata ← (parseCheckpointArtifact checkpoint runtime.config.snapshotMaxBytes
    runtime.config.stateCapacity).mapError fun status =>
      runtime.fail status "checkpoint validation failed before replay"
  let inputMetadata ← (parseInputLogArtifact inputLog runtime.config.inputLogMaxBytes
    runtime.config.replayInputCapacity).mapError fun status =>
      runtime.fail status "input-log validation failed before replay"
  reject (¬ (runtime.checkpointMatches checkpointMetadata ∧
      runtime.inputLogMatches inputMetadata) ∨
      (inputMetadata.recordCount ≠ 0 ∧
        inputMetadata.firstFrameIndex ≤ checkpointMetadata.checkpointFrameIndex))
    (runtime.fail .incompatibleArtifact
      "checkpoint/input-log identity does not match the runtime")
  return (checkpointMetadata, inputMetadata)

end SnapshotRuntime

/-- `ReplayResult`, the hash of the final state apart. -/
structure ReplayResult where
  checkpointFrameIndex : UInt64 := 0
  firstFrameIndex : UInt64 := 0
  lastFrameIndex : UInt64 := 0
  recordsProcessed : ℕ := 0
  framesReplayed : ℕ := 0
  deriving DecidableEq, Repr

/-- What a replay drives: the callback of the application and `step`. -/
structure ReplayMachine (σ : Type) where
  inputCallback : SnapshotRuntime σ → ReplayInputRecord → SnapshotRuntime σ × Bool
  step : SnapshotRuntime σ → ReplayFrame → SnapshotRuntime σ × Status

structure ReplayOutcome (σ : Type) where
  status : Status
  runtime : SnapshotRuntime σ
  result : ReplayResult := {}

namespace ReplayMachine

variable {σ : Type} (machine : ReplayMachine σ)

/-- One record is handed to the callback and its frame is stepped; what follows is only reached if
both succeed. -/
def turn (record : ReplayInputRecord) (runtime : SnapshotRuntime σ) (result : ReplayResult)
    (rest : SnapshotRuntime σ → ReplayResult → ReplayOutcome σ) : ReplayOutcome σ :=
  let called := machine.inputCallback runtime record
  if !called.2 then
    ⟨.callbackFailed, (called.1.fail .callbackFailed "replay input callback failed").2, result⟩
  else
    let result := { result with recordsProcessed := result.recordsProcessed + 1 }
    let stepped := machine.step called.1 record.frame
    if stepped.2 ≠ .ok then ⟨stepped.2, stepped.1, result⟩
    else rest stepped.1 { result with framesReplayed := result.framesReplayed + 1 }

/-- The loop of `replay` over the records of the log. -/
def replayRecords (inputLog : List UInt8) (metadata : InputLogMetadata) :
    ℕ → InputLogRecordCursor → SnapshotRuntime σ → ReplayResult → ReplayOutcome σ
  | 0, _, runtime, result => ⟨.ok, runtime.clearError, result⟩
  | count + 1, cursor, runtime, result =>
    let next := nextInputLogRecord inputLog metadata cursor
    match next.1 with
    | none => ⟨.internalError, (runtime.fail .internalError
        "validated input log could not be traversed").2, result⟩
    | some view =>
      machine.turn (view.record inputLog) runtime result
        (replayRecords inputLog metadata count next.2)

/-- The flag that a replay is under way, around its loop. -/
def guarded (runtime : SnapshotRuntime σ)
    (loop : SnapshotRuntime σ → ReplayOutcome σ) : ReplayOutcome σ :=
  let outcome := loop { runtime with inReplay := true }
  { outcome with runtime := { outcome.runtime with inReplay := false } }

/-- Everything in `replay` before its loop, with the runtime it has restored. -/
def prepareReplay (runtime : SnapshotRuntime σ) (checkpoint inputLog : ByteSpan)
    (hasCallback : Bool) :
    Attempt σ (CheckpointMetadata × InputLogMetadata × SnapshotRuntime σ) := do
  runtime.admitReplay inputLog
  let (checkpointMetadata, inputMetadata) ←
    runtime.identifyReplay checkpoint.bytes inputLog.bytes
  reject (inputMetadata.recordCount ≠ 0 ∧ !hasCallback) (runtime.fail .invalidArgument
    "replay input callback is required for a non-empty log")
  let (_, restored) ← runtime.restoreCheckpoint checkpoint
  reject restored.inReplay (restored.fail .invalidState "replay is already active")
  return (checkpointMetadata, inputMetadata, restored)

/-- `replay`. -/
def replay (runtime : SnapshotRuntime σ) (checkpoint inputLog : ByteSpan) (hasCallback : Bool) :
    ReplayOutcome σ :=
  match prepareReplay runtime checkpoint inputLog hasCallback with
  | .error (status, runtime) => ⟨status, runtime, {}⟩
  | .ok (checkpointMetadata, inputMetadata, restored) =>
    guarded restored fun runtime =>
      machine.replayRecords inputLog.bytes inputMetadata inputMetadata.recordCount.toNat {} runtime
        { checkpointFrameIndex := checkpointMetadata.checkpointFrameIndex
          firstFrameIndex := inputMetadata.firstFrameIndex
          lastFrameIndex := inputMetadata.lastFrameIndex }

end ReplayMachine

end RtRuntime
