import RtRuntime.SnapshotCodec

/-!
# The runtime configuration

`RuntimeConfig` with its defaults and `validate_config`.  Sizes are natural numbers: the largest one
that is accepted is far below `2 ^ 64`.  The enumerations are bytes in the source, and a byte without
a name is `unknown` here.
-/

namespace RtRuntime

/-! ## Enumerations -/

inductive NumericalMode where
  | precise
  | fusedMultiplyAdd
  | unknown (code : UInt8)
  deriving DecidableEq, Repr

inductive ExecutorPolicy where
  | staticDeterministic
  | boundedThroughput
  | hostAdapter
  | unknown (code : UInt8)
  deriving DecidableEq, Repr

inductive OverloadPolicy where
  | rejectSubmission
  | failFrame
  | unknown (code : UInt8)
  deriving DecidableEq, Repr

inductive PlatformPreflightMode where
  | disabled
  | strict
  | unknown (code : UInt8)
  deriving DecidableEq, Repr

/-! ## Fields -/

/-- A text in an identifier array, with zeros behind it. -/
def Identifier.ofText (text : List UInt8) (short : text.length ≤ identifierCapacity) :
    Identifier :=
  ⟨text ++ List.replicate (identifierCapacity - text.length) 0, by simp; omega⟩

/-- `unspecified`. -/
def unspecifiedWorkload : Identifier :=
  .ofText [117, 110, 115, 112, 101, 99, 105, 102, 105, 101, 100] (by decide)

structure RuntimeConfig where
  callbackCapacity : ℕ := 64
  scratchBytes : ℕ := 64 * 1024
  traceCapacity : ℕ := 1024
  numericalMode : NumericalMode := .precise
  executorPolicy : ExecutorPolicy := .staticDeterministic
  workerCount : ℕ := 1
  executorQueueCapacity : ℕ := 1024
  scratchAlignment : ℕ := 64
  taskScratchBytes : ℕ := 4 * 1024
  taskScratchSlots : ℕ := 1024
  memoryBudgetBytes : ℕ := 256 * 1024 * 1024
  overloadPolicy : OverloadPolicy := .rejectSubmission
  watchdogTimeoutNs : ℕ := 0
  watchdogMaxDegradationLevel : ℕ := 0
  platformPreflightMode : PlatformPreflightMode := .disabled
  determinismTier : DeterminismTier := .unspecified
  stateCapacity : ℕ := 64
  snapshotMaxBytes : ℕ := 1024 * 1024
  replayInputCapacity : ℕ := 4096
  inputLogMaxBytes : ℕ := 1024 * 1024
  deviceBackendCapacity : ℕ := 1
  deviceBufferCapacity : ℕ := 64
  deviceOutstandingCapacity : ℕ := 64
  deviceCompletionBatch : ℕ := 16
  workloadId : Identifier := unspecifiedWorkload
  deriving DecidableEq, Repr

/-! ## Limits -/

def maxCallbacks : ℕ := 65536

def maxScratchBytes : ℕ := 2 ^ 30

def maxTraceEvents : ℕ := 2 ^ 20

def maxWorkers : ℕ := 256

def maxExecutorQueueCapacity : ℕ := 2 ^ 20

def maxTaskScratchBytes : ℕ := 2 ^ 20

def maxTaskScratchSlots : ℕ := 2 ^ 20

def maxScratchAlignment : ℕ := 2 ^ 12

/-- `alignof(std::max_align_t)`. -/
def fundamentalAlignment : ℕ := 16

/-- Where a size has 64 bits. -/
def maxMemoryBudgetBytes : ℕ := 2 ^ 40

def maxWatchdogTimeoutNs : ℕ := 24 * 60 * 60 * 1000000000

def maxDegradationLevel : ℕ := 255

def maxDeviceBackends : ℕ := 256

def maxDeviceBuffers : ℕ := 65536

def maxDeviceOutstanding : ℕ := 2 ^ 20

def maxDeviceCompletionBatch : ℕ := 2 ^ 16

/-! ## Validation -/

/-- The test `(value & (value - 1)) != 0` of the source. -/
def notPowerOfTwo (value : ℕ) : Prop := value &&& (value - 1) ≠ 0

instance (value : ℕ) : Decidable (notPowerOfTwo value) := inferInstanceAs (Decidable (_ ≠ _))

def NumericalMode.known : NumericalMode → Bool
  | .precise | .fusedMultiplyAdd => true
  | .unknown _ => false

def ExecutorPolicy.known : ExecutorPolicy → Bool
  | .staticDeterministic | .boundedThroughput | .hostAdapter => true
  | .unknown _ => false

def OverloadPolicy.known : OverloadPolicy → Bool
  | .rejectSubmission | .failFrame => true
  | .unknown _ => false

def PlatformPreflightMode.known : PlatformPreflightMode → Bool
  | .disabled | .strict => true
  | .unknown _ => false

/-- The switch over the tier: schedule independence is only offered by one policy without a
watchdog, and no higher tier is. -/
def RuntimeConfig.tierOffered (config : RuntimeConfig) : Bool :=
  match config.determinismTier with
  | .unspecified => true
  | .scheduleIndependent =>
    config.executorPolicy = .staticDeterministic && config.watchdogTimeoutNs = 0
  | _ => false

/-- `validate_config`. -/
def validateConfig (config : RuntimeConfig) : Except Status Unit := do
  reject (config.callbackCapacity = 0 ∨ config.callbackCapacity > maxCallbacks) .invalidConfig
  reject (config.scratchBytes > maxScratchBytes ∨ config.traceCapacity > maxTraceEvents)
    .invalidConfig
  reject (config.workerCount = 0 ∨ config.workerCount > maxWorkers ∨
    config.executorQueueCapacity < 2 ∨
    config.executorQueueCapacity > maxExecutorQueueCapacity ∨
    notPowerOfTwo config.executorQueueCapacity) .invalidConfig
  reject (config.scratchAlignment < fundamentalAlignment ∨
    config.scratchAlignment > maxScratchAlignment ∨
    notPowerOfTwo config.scratchAlignment ∨ config.taskScratchBytes > maxTaskScratchBytes ∨
    config.taskScratchSlots = 0 ∨ config.taskScratchSlots > maxTaskScratchSlots ∨
    config.memoryBudgetBytes = 0 ∨ config.memoryBudgetBytes > maxMemoryBudgetBytes ∨
    config.watchdogTimeoutNs > maxWatchdogTimeoutNs ∨
    config.watchdogMaxDegradationLevel > maxDegradationLevel ∨
    config.stateCapacity > artifactAbsoluteMaxRecords ∨
    config.snapshotMaxBytes < checkpointHeaderSize ∨
    config.snapshotMaxBytes > artifactAbsoluteMaxBytes ∨
    config.replayInputCapacity > artifactAbsoluteMaxRecords ∨
    config.inputLogMaxBytes < inputLogHeaderSize ∨
    config.inputLogMaxBytes > artifactAbsoluteMaxBytes ∨
    config.deviceBackendCapacity = 0 ∨ config.deviceBackendCapacity > maxDeviceBackends ∨
    config.deviceBufferCapacity > maxDeviceBuffers ∨
    config.deviceOutstandingCapacity = 0 ∨
    config.deviceOutstandingCapacity > maxDeviceOutstanding ∨
    config.deviceCompletionBatch = 0 ∨
    config.deviceCompletionBatch > maxDeviceCompletionBatch ∨
    config.deviceCompletionBatch > config.deviceOutstandingCapacity ∨
    ¬ validIdentifier config.workloadId.view) .invalidConfig
  reject (¬ config.numericalMode.known) .invalidConfig
  reject (¬ config.executorPolicy.known) .invalidConfig
  reject (¬ config.overloadPolicy.known) .invalidConfig
  reject (¬ config.platformPreflightMode.known) .invalidConfig
  reject (¬ config.tierOffered) .invalidConfig

/-- The defaults are a valid configuration. -/
theorem validateConfig_default : validateConfig {} = .ok () := by
  decide +kernel

theorem stateCapacity_le {config : RuntimeConfig} (valid : validateConfig config = .ok ()) :
    config.stateCapacity ≤ artifactAbsoluteMaxRecords := by
  simp only [validateConfig, reject_bind_eq_ok, not_or, not_lt] at valid
  obtain ⟨-, -, -, ⟨-, -, -, -, -, -, -, -, -, -, bound, -⟩, -⟩ := valid
  exact bound

end RtRuntime
