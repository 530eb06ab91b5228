import RtRuntime.DeviceRatePlan
import RtRuntime.RateDispatch

/-!
# The state of active rate execution

The data that `run_active_step` reads and writes: the plan frozen at finalization, the
actions it emits, the shedding policy and the state of the runtime between and during
steps. What the runtime asks of its surroundings (callbacks, device batches, snapshot
stores, live controls) is collected in `ActiveMachine`, a record of replies over a state
`ω` of the surroundings; the clock is a sequence of readings.

Two histories are kept that the source does not store: `trace` lists the calls that start
a record or that accept, wait for and release a device batch, and `rateLog` is the rate
telemetry without the bound of its ring.
-/

namespace RtRuntime

/-! ## Actions -/

inductive RateActionId where
  | executeOnTime
  | executeCatchUp
  | skip
  | hold
  | executeDegraded
  | fail
  | optionalShed
  deriving DecidableEq, Repr

inductive RateTransitionId where
  | none
  | shed
  | recover
  deriving DecidableEq, Repr

inductive RateActionReason where
  | onTime
  | deadlineLate
  | alreadyShed
  | lateThreshold
  | onTimeThreshold
  | callbackFailure
  | dispatchCapacity
  deriving DecidableEq, Repr

/-- `PolicyTransition`. -/
structure PolicyTransition where
  id : RateTransitionId := .none
  reason : RateActionReason := .onTime
  before : UInt64 := 0
  after : UInt64 := 0
  domainIndex : Option ℕ := none
  deriving DecidableEq, Repr

/-- `RateActionRecord`: one decision about `releaseCount` consecutive releases of a domain. -/
structure RateActionRecord where
  frameIndex : ℕ
  firstSequence : ℕ
  logicalReleaseNs : ℕ
  nominalReleaseNs : ℕ
  releaseCount : ℕ
  referenceRecordCount : ℕ
  domainIndex : ℕ
  action : RateActionId
  transition : PolicyTransition
  reason : RateActionReason
  optional : Bool
  late : Bool
  status : Status
  degradationLevel : UInt32
  deriving DecidableEq, Repr

/-- The actions a rate decision is recorded as in the mixed-rate transcript. -/
inductive MixedRateActionId where
  | rateExecute
  | rateSkip
  | rateHold
  | rateShed
  | rateRecover
  deriving DecidableEq, Repr

inductive MixedRateActionReason where
  | normal
  | deadlineLate
  | alreadyShed
  | callbackFailure
  | lateThreshold
  | onTimeThreshold
  deriving DecidableEq, Repr

/-- A mixed-rate record of stage `decision`. It has no count of releases. -/
structure MixedRateDecision where
  frameIndex : ℕ
  logicalReleaseNs : ℕ
  nominalReleaseNs : ℕ
  releaseSequence : ℕ
  shedMaskBefore : UInt64
  shedMaskAfter : UInt64
  domainIndex : ℕ
  terminalStatus : Status
  degradationBefore : UInt32
  degradationAfter : UInt32
  action : MixedRateActionId
  reason : MixedRateActionReason
  optional : Bool
  late : Bool
  shed : Bool
  deriving DecidableEq, Repr

/-- A mixed-rate record of a device completion; `details` stands for the payload digest and
the sampled metadata. The batch identity and generation are left out: replay takes them
from the record it compares with. -/
structure DeviceTerminalRecord (ε : Type) where
  frameIndex : ℕ
  logicalReleaseNs : ℕ
  nominalReleaseNs : ℕ
  releaseSequence : ℕ
  domainIndex : ℕ
  phaseIndex : ℕ
  substepOrdinal : UInt32
  terminalStatus : Status
  timestampDomainIdentity : UInt64
  timestamp : UInt64
  shedMask : UInt64
  degradation : UInt32
  details : ε
  deriving DecidableEq

/-- `MixedRateActionRecord`, by what emits it; the sampled records of callbacks and channels
come from the surroundings. -/
inductive MixedRateAction (ε : Type) where
  | decision (record : MixedRateDecision)
  | deviceTerminal (record : DeviceTerminalRecord ε)
  | external (record : ε)
  deriving DecidableEq

/-- `mapped_action`. -/
def RateActionRecord.mappedAction (record : RateActionRecord) : MixedRateActionId :=
  match record.transition.id with
  | .shed => .rateShed
  | .recover => .rateRecover
  | .none =>
    match record.action with
    | .skip => .rateSkip
    | .hold => .rateHold
    | .optionalShed => .rateShed
    | _ => .rateExecute

/-- `mapped_reason`. -/
def RateActionRecord.mappedReason (record : RateActionRecord) : MixedRateActionReason :=
  match record.reason with
  | .deadlineLate => .deadlineLate
  | .alreadyShed => .alreadyShed
  | .callbackFailure => .callbackFailure
  | .lateThreshold => .lateThreshold
  | .onTimeThreshold => .onTimeThreshold
  | _ => .normal

/-- The mixed-rate record of a rate action: all it says is about the first release. -/
def RateActionRecord.decision (record : RateActionRecord) : MixedRateDecision where
  frameIndex := record.frameIndex
  logicalReleaseNs := record.logicalReleaseNs
  nominalReleaseNs := record.nominalReleaseNs
  releaseSequence := record.firstSequence
  shedMaskBefore := record.transition.before
  shedMaskAfter := record.transition.after
  domainIndex := record.domainIndex
  terminalStatus := record.status
  degradationBefore :=
    if record.action = .executeDegraded ∧ record.degradationLevel ≠ 0 then
      record.degradationLevel - 1
    else record.degradationLevel
  degradationAfter := record.degradationLevel
  action := record.mappedAction
  reason := record.mappedReason
  optional := record.optional
  late := record.late
  shed := record.mappedAction = .rateShed

/-! ## The frozen plan -/

/-- What active execution reads of the finalized runtime. -/
structure ActivePlan where
  ratePlan : CompiledRatePlan
  dispatch : CompiledRateDispatchPlan
  channels : List CompiledCrossRateChannel := []
  devicePhases : List CompiledDeviceRatePhase := []
  watchdogMaxDegradationLevel : UInt32 := 0
  maximumActionsPerStep : ℕ := 0

/-- The device phases of the plan are those of the admitted device plan, if there is one. -/
def ActivePlan.Admits (plan : ActivePlan) : Option CompiledDeviceRatePlan → Prop
  | none => plan.devicePhases = []
  | some devicePlan => plan.devicePhases = devicePlan.phases ∧
      ∃ inputs output, inputs.ratePlan = plan.ratePlan ∧
        (compileDeviceRatePlan inputs output).status = .ok ∧
        (compileDeviceRatePlan inputs output).output = devicePlan

/-- The plan is what the timeline, device and dispatch compilers produced. -/
structure ActivePlan.Finalized (plan : ActivePlan) : Prop where
  timeline : ∃ graphOwner phaseCount compiledOrder domains bindings output, domains ≠ [] ∧
    (compileRateTimeline graphOwner phaseCount compiledOrder domains bindings output).status =
      .ok ∧
    (compileRateTimeline graphOwner phaseCount compiledOrder domains bindings output).output =
      plan.ratePlan
  dispatch : ∃ inputs output, inputs.ratePlan = plan.ratePlan ∧ plan.Admits inputs.deviceRatePlan ∧
    (compileRateDispatch inputs output).status = .ok ∧
    (compileRateDispatch inputs output).output = plan.dispatch

namespace ActivePlan

variable (plan : ActivePlan)

def domain (index : ℕ) : CompiledRateDomain := plan.ratePlan.domains.getD index {}

def release (reference : ℕ) : ReferenceRelease := plan.ratePlan.releases.getD reference {}

def domainCount : ℕ := plan.ratePlan.domains.length

def period (index : ℕ) : ℕ := (plan.domain index).periodNs.toNat

/-- The records of one release of the domain. -/
def records (index : ℕ) : ℕ := plan.dispatch.recordsPerDomainRelease index

/-- The group that executes a release: the releases of a domain repeat with the supercycle. -/
def groupAt (index sequence : ℕ) : Option RateReleaseGroup :=
  let withinCycle := sequence % (plan.domain index).releasesPerSupercycle.toNat
  let sliceBegin := plan.dispatch.domainGroupOffsets index
  let sliceEnd := plan.dispatch.domainGroupOffsets (index + 1)
  if withinCycle ≥ sliceEnd - sliceBegin then none
  else some (plan.dispatch.groups.getD
    (plan.dispatch.domainGroupIndices (sliceBegin + withinCycle)) {})

/-- The slots of a compiled array between two offsets. -/
def sliceOf (offsets slots : ℕ → ℕ) (key : ℕ) : List ℕ :=
  (List.range' (offsets key) (offsets (key + 1) - offsets key)).map slots

/-- The channels a phase produces. -/
def producedChannels (phaseIndex : ℕ) : List ℕ :=
  sliceOf plan.dispatch.producerChannelOffsets plan.dispatch.producerChannelIndices phaseIndex

/-- The channels a phase produces from the host; device channels are captured on completion. -/
def hostChannels (phaseIndex : ℕ) : List ℕ :=
  (plan.producedChannels phaseIndex).filter fun channel =>
    !(plan.channels.getD channel {}).producerDevice.valid

/-- The device records a record waits for before it starts. -/
def dependenciesOf (reference : ℕ) : List ℕ :=
  sliceOf plan.dispatch.deviceDependencyOffsets
    (fun slot => plan.dispatch.deviceDependencies.getD slot 0) reference

/-- The channel is produced by the domain. -/
def producedBy (index channel : ℕ) : Bool :=
  decide (channel < plan.channels.length) &&
    decide ((plan.channels.getD channel {}).producerDomain = (plan.domain index).domain)

/-- The bit of a domain in the shed mask. -/
def shedBit (index : ℕ) : UInt64 := 1 <<< UInt64.ofNat index

/-- `optional_mask`. -/
def optionalMask : UInt64 :=
  plan.dispatch.optionalShedOrder.foldl (fun mask index => mask ||| shedBit index) 0

end ActivePlan

/-! ## Device batches -/

/-- `DeviceRateReleaseIdentity`. -/
structure DeviceRateReleaseIdentity where
  referenceIndex : ℕ
  domain : RateDomainHandle
  phase : PhaseHandle
  supercycleCycle : ℕ
  domainReleaseSequence : ℕ
  substepOrdinal : UInt32
  logicalReleaseNs : ℕ
  nominalReleaseNs : ℕ
  absoluteDeadlineNs : ℕ
  deriving DecidableEq, Repr

/-- `DeviceRateTicket`; a ticket that is not valid is `none`. -/
structure DeviceRateTicket where
  slotIndex : ℕ
  batchId : UInt64
  identity : DeviceRateReleaseIdentity
  deriving DecidableEq, Repr

/-- `DeviceRateCompletion`. -/
structure DeviceRateCompletion where
  status : Status := .invalidState
  timestampDomainIdentity : UInt64 := 0
  timestamp : UInt64 := 0
  terminalSlotOwned : Bool := false
  deriving DecidableEq, Repr

/-- How `wait_rate_batch` finds the slot of a ticket in the end. Only failures are
quarantined. -/
inductive RateBatchEnd where
  | terminal (status : Status) (timestampDomainIdentity timestamp : UInt64)
  | quarantined (status : Status) (failed : status ≠ .ok)
  | foreign

/-- What `wait_rate_batch` stores; its result is the status. Only a terminal slot becomes
owned by the waiter. -/
def RateBatchEnd.completion : RateBatchEnd → DeviceRateCompletion
  | .terminal status domain timestamp => ⟨status, domain, timestamp, true⟩
  | .quarantined status _ => { status := status }
  | .foreign => { status := .invalidHandle }

/-! ## The surroundings -/

/-- What a callback or a channel sees of the release it works for. -/
structure ReleaseContext where
  reference : ℕ
  release : ReferenceRelease
  supercycleCycle : ℕ
  domainReleaseSequence : ℕ
  logicalReleaseNs : ℕ
  nominalReleaseNs : ℕ
  absoluteDeadlineNs : ℕ
  degradationLevel : UInt32
  shedMask : UInt64
  held : ℕ → Bool
  payloadSlot : ℕ

/-- A reply of the surroundings, with the mixed-rate records it emitted. -/
structure Reply (ω ε α : Type) where
  value : α
  emitted : List ε := []
  world : ω

/-- The outcome of `run_selected`: its status, the slot and batch of an accepted device
submission, and the channels the callback published. -/
structure RunOutcome where
  status : Status := .ok
  submission : Option (ℕ × UInt64) := none
  published : ℕ → Bool := fun _ => true

structure ActiveMachine (ω ε : Type) where
  /-- `wait_rate_batch` -/
  waitRateBatch : ω → DeviceRateTicket → RateBatchEnd × ω
  /-- `capture_device_outputs`, with the channels it published -/
  captureDeviceOutputs : ω → DeviceRateTicket → DeviceRateCompletion → (Status × List ℕ) × ω
  /-- `release_rate_batch` -/
  releaseRateBatch : ω → DeviceRateTicket → Status × ω
  /-- digest and sampled metadata of a completed batch -/
  describeBatch : ω → DeviceRateTicket → ε
  /-- the sampled publications of a completed batch -/
  publishBatch : ω → DeviceRateTicket → List ε
  /-- the generation counter of a channel is used up -/
  generationsExhausted : ω → ℕ → Bool
  /-- `close_rate_release` -/
  closeRateRelease : ω → ℕ → ℕ → ω
  /-- `prepare_device_inputs` -/
  prepareDeviceInputs : ω → ReleaseContext → Reply ω ε Status
  /-- `run_selected` with `run_phase` -/
  runSelected : ω → ReleaseContext → Reply ω ε RunOutcome
  /-- a channel the callback left unpublished: `true` when a safe frame was substituted -/
  substituteSafe : ω → ℕ → Reply ω ε Bool
  /-- retire and publish a host channel -/
  publishChannel : ω → ReleaseContext → ℕ → Reply ω ε Bool
  /-- `expire_rate_releases_before` -/
  expireRateReleasesBefore : ω → ℕ → ω

/-! ## State -/

/-- `ActiveSheddingState`. -/
structure ActiveSheddingState where
  shedMask : UInt64 := 0
  consecutiveLate : UInt32 := 0
  consecutiveOnTime : UInt32 := 0
  deriving DecidableEq, Repr

/-- The domain, sequence and substep of a failure. -/
structure RateFailure where
  domain : RateDomainHandle
  sequence : ℕ
  substep : UInt32
  deriving DecidableEq, Repr

/-- The replay of a transcript: the recorded actions, the position of the next expected one
and whether an emitted action has differed. -/
structure ReplayState (ε : Type) where
  actions : List (MixedRateAction ε)
  expectedAction : ℕ := 0
  actionsCompared : ℕ := 0
  mismatch : Bool := false

inductive ActiveEvent where
  | ran (reference sequence : ℕ)
  | accepted (reference : ℕ) (ticket : DeviceRateTicket)
  | waited (reference : ℕ) (ticket : DeviceRateTicket)
  | released (reference : ℕ) (ticket : DeviceRateTicket)
  deriving DecidableEq, Repr

structure ActiveState (ω ε : Type) where
  world : ω
  fault : Option RateFailure := none
  logicalCursorNs : ℕ := 0
  nominalEpochNs : ℕ := 0
  epochMapped : Bool := false
  logicalReleaseNs : ℕ := 0
  shedding : Option ActiveSheddingState := none
  degradationLevel : UInt32 := 0
  tickets : ℕ → Option DeviceRateTicket := fun _ => none
  held : ℕ → Bool := fun _ => false
  rateLog : List RateActionRecord := []
  mixedLog : List (MixedRateAction ε) := []
  replay : Option (ReplayState ε) := none
  trace : List ActiveEvent := []

/-- The state after `finalize`: a shedding state only where a domain can be shed. -/
def ActivePlan.initialState {ω ε : Type} (plan : ActivePlan) (world : ω) : ActiveState ω ε where
  world := world
  shedding := if plan.dispatch.optionalShedOrder.isEmpty then none else some {}

/-- `StepResult::RateSummary`. -/
structure RateSummary where
  dueDomainReleases : ℕ := 0
  dueReferenceRecords : ℕ := 0
  executedReferenceRecords : ℕ := 0
  onTimeDomainReleases : ℕ := 0
  lateDomainReleases : ℕ := 0
  caughtUpDomainReleases : ℕ := 0
  skippedDomainReleases : ℕ := 0
  heldDomainReleases : ℕ := 0
  degradedDomainReleases : ℕ := 0
  rejectedReferenceRecords : ℕ := 0
  failedDomainReleases : ℕ := 0
  firstFailure : Option RateFailure := none
  optionalDueDomainReleases : ℕ := 0
  optionalExecutedDomainReleases : ℕ := 0
  shedDomainReleases : ℕ := 0
  shedTransitions : ℕ := 0
  recoveryTransitions : ℕ := 0
  currentlyShedDomains : ℕ := 0
  ratePolicyVersion : UInt64 := 0
  deriving DecidableEq, Repr

/-- The state during a step: `next` is `next_sequence`, `reads` the number of clock readings
taken, the other fields are the locals of the same name. -/
structure StepState (ω ε : Type) extends ActiveState ω ε where
  next : ℕ → ℕ
  catchUpCounts : ℕ → ℕ := fun _ => 0
  settledRecords : ℕ := 0
  summary : RateSummary := {}
  failedPhase : Option ℕ := none
  reads : ℕ := 0

/-- A step that stops carries its status and the state it stopped in. -/
abbrev Progress (ω ε α : Type) : Type := Except (Status × StepState ω ε) α

end RtRuntime
