import RtRuntime.Buckets
import RtRuntime.CrossRateData

/-!
# The rate dispatch compiler

`compile_rate_dispatch` prepares active execution of a compiled rate plan. It validates
the policy, the domains and the dependencies, admits the mandatory CPU records by
simulating one supercycle at the declared budgets on a single lane, and groups the
reference records by domain release so that the runtime finds every group by index.
-/

namespace RtRuntime

/-! ## Inputs and results -/

/-- `DeterminismTier`; a code outside the enumeration is `unknown`. -/
inductive DeterminismTier where
  | unspecified
  | scheduleIndependent
  | reproducibleBuild
  | portableDeterministic
  | unknown (code : UInt8)
  deriving DecidableEq, Repr

structure RateExecutionPolicy where
  maximumDispatchRecordsPerStep : ℕ := 0
  hostPolicyVersion : UInt64 := 1
  consecutiveLateThreshold : UInt32 := 1
  consecutiveOnTimeThreshold : UInt32 := 1
  rateTelemetryCapacity : ℕ := 0
  deriving DecidableEq, Repr

structure RateAdmissionRecord where
  referenceIndex : ℕ := 0
  declaredStartNs : UInt64 := 0
  declaredFinishNs : UInt64 := 0
  deadlineNs : UInt64 := 0
  deriving DecidableEq, Repr

structure RateReleaseGroup where
  firstReferenceIndex : ℕ := 0
  referenceCount : ℕ := 0
  domainRegistrationIndex : ℕ := 0
  domainReleaseSequence : UInt64 := 0
  releaseTimeNs : UInt64 := 0
  deriving DecidableEq, Repr

/-- `CompiledRateDispatchPlan`; arrays that are read by index are functions. -/
structure CompiledRateDispatchPlan where
  policy : RateExecutionPolicy := {}
  admission : List RateAdmissionRecord := []
  groups : List RateReleaseGroup := []
  domainGroupOffsets : ℕ → ℕ := fun _ => 0
  domainGroupIndices : ℕ → ℕ := fun _ => 0
  recordsPerDomainRelease : ℕ → ℕ := fun _ => 0
  optionalShedOrder : List ℕ := []
  producerChannelOffsets : ℕ → ℕ := fun _ => 0
  producerChannelIndices : ℕ → ℕ := fun _ => 0
  consumerChannelOffsets : ℕ → ℕ := fun _ => 0
  consumerChannelIndices : ℕ → ℕ := fun _ => 0
  devicePhaseByReference : List (Option ℕ) := []
  deviceDependencyOffsets : ℕ → ℕ := fun _ => 0
  deviceDependencies : List ℕ := []
  maximumDeviceRecordsPerGroup : ℕ := 0

structure RateDispatchDiagnostic where
  status : Status := .ok
  message : Option String := none
  referenceIndex : Option ℕ := none
  deriving DecidableEq, Repr

def dispatchFailure (status : Status) (message : String) : RateDispatchDiagnostic :=
  ⟨status, some message, none⟩

/-- A failure that names the reference record it was found at. -/
def dispatchFailureAt (status : Status) (message : String) (index : ℕ) : RateDispatchDiagnostic :=
  ⟨status, some message, some index⟩

def ratePolicyThresholdLimit : ℕ := referenceReleaseCapacity
def rateTelemetryCapacityLimit : ℕ := referenceReleaseCapacity

structure DispatchInputs where
  graphOwner : UInt32
  determinismTier : DeterminismTier
  policy : RateExecutionPolicy
  dependencies : List GraphDependency
  ratePlan : CompiledRatePlan
  channels : List CrossRateChannelSpec
  deviceRatePlan : Option CompiledDeviceRatePlan

/-! ## Validation -/

/-- The policy fields are positive and bounded. -/
def RateExecutionPolicy.valid (p : RateExecutionPolicy) : Bool :=
  p.maximumDispatchRecordsPerStep ≠ 0 &&
    p.maximumDispatchRecordsPerStep ≤ referenceReleaseCapacity &&
    p.hostPolicyVersion ≠ 0 &&
    p.consecutiveLateThreshold ≠ 0 && p.consecutiveOnTimeThreshold ≠ 0 &&
    p.consecutiveLateThreshold.toNat ≤ ratePolicyThresholdLimit &&
    p.consecutiveOnTimeThreshold.toNat ≤ ratePolicyThresholdLimit &&
    p.rateTelemetryCapacity ≤ rateTelemetryCapacityLimit

/-- `valid_action`. -/
def RateLateAction.valid : RateLateAction → Bool
  | .unknown _ => false
  | _ => true

/-- The record takes time on the CPU lane. -/
def ReferenceRelease.mandatoryCpu (r : ReferenceRelease) : Bool :=
  !r.optional && r.phaseKind = .cpu

namespace DispatchInputs

variable (inputs : DispatchInputs)

/-- The domain handle names a domain of the plan. -/
def domainInRange (domain : RateDomainHandle) : Bool :=
  domain.valid && domain.index < inputs.ratePlan.domains.length

/-- `cpu_domains`. -/
def cpuDomain (index : ℕ) : Bool :=
  inputs.ratePlan.bindings.any fun binding =>
    binding.phaseKind = .cpu && inputs.domainInRange binding.domain && binding.domain.index = index

/-- The domain a channel endpoint runs in. -/
def endpointDomain (phase : PhaseHandle) : Option ℕ :=
  match inputs.ratePlan.bindings.find? (fun binding => binding.phase = phase) with
  | none => none
  | some binding =>
    if inputs.domainInRange binding.domain then some binding.domain.index else none

/-- `producer_domains` after one more channel. -/
def recordProducer (producerDomains : ℕ → Bool) (channel : CrossRateChannelSpec) :
    Except RateDispatchDiagnostic (ℕ → Bool) := do
  reject (!(channel.producer.belongs inputs.graphOwner inputs.ratePlan.bindings.length) ||
      !(channel.consumer.belongs inputs.graphOwner inputs.ratePlan.bindings.length))
    (dispatchFailure .invalidHandle "active cross-rate endpoint is invalid")
  let noDomain :=
    dispatchFailure .invalidHandle "active cross-rate endpoint has no valid domain"
  let producer ← orReject (inputs.endpointDomain channel.producer) noDomain
  let consumer ← orReject (inputs.endpointDomain channel.consumer) noDomain
  reject ((inputs.ratePlan.domains.getD producer {}).optional ||
      (inputs.ratePlan.domains.getD consumer {}).optional)
    (dispatchFailure .invalidConfig
      "optional domains cannot produce or consume active cross-rate channels")
  return Function.update producerDomains producer true

/-- The fields of a domain that active execution relies on. -/
def domainValid (producerDomains : ℕ → Bool) (domain : CompiledRateDomain) (index : ℕ) : Bool :=
  domain.periodNs ≠ 0 && domain.relativeDeadlineNs ≠ 0 &&
    !(inputs.cpuDomain index && domain.periodNs < domain.relativeDeadlineNs) &&
    domain.lateAction.valid &&
    !(domain.lateAction = .boundedCatchUp && domain.boundedCatchUpLimit = 0) &&
    !(domain.lateAction ≠ .boundedCatchUp && domain.boundedCatchUpLimit ≠ 0) &&
    !(domain.lateAction = .skip && producerDomains index)

/-- The admitted device phase that executes a phase of a domain. -/
def admittedPhase (phase : PhaseHandle) (domain : RateDomainHandle) : Option ℕ :=
  inputs.deviceRatePlan.bind fun plan =>
    plan.phases.findIdx? fun record => record.phase = phase && record.domain = domain

/-- `domain_by_phase` after one more binding. -/
def recordDomain (domainByPhase : ℕ → Option ℕ) (binding : CompiledRateBinding) :
    Except RateDispatchDiagnostic (ℕ → Option ℕ) := do
  reject (!(binding.phase.belongs inputs.graphOwner inputs.ratePlan.bindings.length) ||
      !(binding.domain.belongs inputs.graphOwner inputs.ratePlan.domains.length))
    (dispatchFailure .invalidHandle "active rate binding is invalid")
  return Function.update domainByPhase binding.phase.index (some binding.domain.index)

/-- A dependency stays within one domain. -/
def dependencyValid (domainByPhase : ℕ → Option ℕ) (dependency : GraphDependency) : Bool :=
  dependency.prerequisite.valid && dependency.dependent.valid &&
    dependency.prerequisite.index < inputs.ratePlan.bindings.length &&
    dependency.dependent.index < inputs.ratePlan.bindings.length &&
    domainByPhase dependency.prerequisite.index = domainByPhase dependency.dependent.index

/-- The checks before anything is compiled. -/
def validate : Except RateDispatchDiagnostic Unit := do
  reject (inputs.policy.valid = false)
    (dispatchFailure .invalidConfig
      "active rate execution requires valid positive policy fields and bounded telemetry")
  reject (inputs.determinismTier ≠ .unspecified)
    (dispatchFailure .invalidConfig "active M16-03 rate execution supports only D0 unspecified")
  reject (inputs.ratePlan.domains.isEmpty || inputs.ratePlan.releases.isEmpty ||
      inputs.ratePlan.supercycleNs = 0 || !(inputs.ratePlan.domains.length ≤ rateDomainCapacity))
    (dispatchFailure .invalidConfig "active rate execution requires a finite explicit rate plan")
  let producerDomains ← inputs.channels.foldlM inputs.recordProducer fun _ => false
  forM inputs.ratePlan.domains.zipIdx fun entry =>
    reject (inputs.domainValid producerDomains entry.1 entry.2 = false)
      (dispatchFailure .invalidConfig "active rate domain has invalid deadline, budget, optionality, late action, or catch-up bound")
  forM inputs.ratePlan.bindings fun binding =>
    reject (binding.phaseKind = .device ∧ inputs.admittedPhase binding.phase binding.domain = none)
      (dispatchFailure .invalidConfig
        "active device rate execution requires an admitted HAL-v2 command-batch phase")
  let domainByPhase ← inputs.ratePlan.bindings.foldlM inputs.recordDomain fun _ => none
  forM inputs.dependencies fun dependency =>
    reject (inputs.dependencyValid domainByPhase dependency = false)
      (dispatchFailure .invalidConfig "active rate execution rejects ordinary cross-domain graph dependencies; use a cross-rate channel")

/-! ## Admission and groups -/

/-- The accumulators of the loop over the reference records. -/
structure AdmissionState where
  previousFinish : ℕ := 0
  admission : List RateAdmissionRecord := []
  groups : List RateReleaseGroup := []
  devicePhaseByReference : List (Option ℕ) := []

/-- The record joins the last group or opens a new one. -/
def pushGroup (groups : List RateReleaseGroup) (release : ReferenceRelease) (index : ℕ) :
    List RateReleaseGroup :=
  let fresh : RateReleaseGroup :=
    ⟨index, 1, release.domainRegistrationIndex, release.domainReleaseSequence,
      release.releaseTimeNs⟩
  match groups.getLast? with
  | none => [fresh]
  | some last =>
    if last.domainRegistrationIndex ≠ release.domainRegistrationIndex ∨
        last.domainReleaseSequence ≠ release.domainReleaseSequence then
      groups ++ [fresh]
    else
      groups.dropLast ++ [{ last with referenceCount := last.referenceCount + 1 }]

/-- The device phase of a device record, `none` for a CPU record. -/
def devicePhaseOf (release : ReferenceRelease) (index : ℕ) :
    Except RateDispatchDiagnostic (Option ℕ) :=
  if release.phaseKind = .device then
    (orReject (inputs.admittedPhase release.phase release.domain)
      (dispatchFailureAt .invalidConfig "active device reference has no admitted execution record"
        index)).map some
  else .ok none

/-- The declared-budget simulation of one record: only mandatory CPU records take time. -/
def admitMandatory (state : AdmissionState) (release : ReferenceRelease) (index : ℕ) :
    Except RateDispatchDiagnostic AdmissionState :=
  if release.mandatoryCpu then do
    let declaredStart := max state.previousFinish release.releaseTimeNs.toNat
    let declaredFinish ← orReject (checkedAdd declaredStart release.budgetWcetNs.toNat)
      (dispatchFailureAt .capacityExceeded "declared-budget admission arithmetic overflowed" index)
    reject (declaredFinish > release.deadlineTimeNs.toNat)
      (dispatchFailureAt .invalidConfig
        "declared-budget admission found an infeasible mandatory record" index)
    return { state with
      previousFinish := declaredFinish
      admission := state.admission ++ [⟨index, UInt64.ofNat declaredStart,
        UInt64.ofNat declaredFinish, release.deadlineTimeNs⟩] }
  else .ok state

/-- One step of the loop over the reference records. -/
def admitRelease (state : AdmissionState) (entry : ReferenceRelease × ℕ) :
    Except RateDispatchDiagnostic AdmissionState := do
  let (release, index) := entry
  reject ((release.phaseKind ≠ .cpu ∧ release.phaseKind ≠ .device) ∨
      release.relativeDeadlineNs = 0 ∨
      release.domainRegistrationIndex ≥ inputs.ratePlan.domains.length)
    (dispatchFailureAt .invalidConfig "active reference record is ambiguous or unsupported" index)
  reject (release.phaseKind = .cpu ∧ release.budgetWcetNs = 0)
    (dispatchFailureAt .invalidConfig "active CPU reference record requires a declared budget"
      index)
  let devicePhase ← inputs.devicePhaseOf release index
  let state ← admitMandatory state release index
  return { state with
    groups := pushGroup state.groups release index
    devicePhaseByReference := state.devicePhaseByReference ++ [devicePhase] }

/-- `records_per_domain_release` after one more group. -/
def countRecords (records : ℕ → ℕ) (group : RateReleaseGroup) :
    Except RateDispatchDiagnostic (ℕ → ℕ) := do
  let domain := group.domainRegistrationIndex
  reject (records domain ≠ 0 ∧ records domain ≠ group.referenceCount)
    (dispatchFailureAt .invalidConfig "active domain release has an ambiguous record count"
      group.firstReferenceIndex)
  return Function.update records domain group.referenceCount

/-! ## Dependencies within a group -/

/-- The device records of the group that a record waits for: for each dependency on its
phase the first device record of the prerequisite before it. -/
def prerequisitesOf (devicePhaseByReference : List (Option ℕ)) (group : RateReleaseGroup)
    (reference : ℕ) : List ℕ :=
  let dependent := inputs.ratePlan.releases.getD reference {}
  inputs.dependencies.filterMap fun dependency =>
    if dependency.dependent ≠ dependent.phase then none
    else (List.range' group.firstReferenceIndex (reference - group.firstReferenceIndex)).find?
      fun prerequisite =>
        (inputs.ratePlan.releases.getD prerequisite {}).phase = dependency.prerequisite &&
          (devicePhaseByReference.getD prerequisite none).isSome

/-- `device_dependencies` with its offsets. -/
structure DependencySlices where
  offsets : ℕ → ℕ := fun _ => 0
  dependencies : List ℕ := []

/-- The slices after one more record. -/
def recordPrerequisites (devicePhaseByReference : List (Option ℕ)) (group : RateReleaseGroup)
    (slices : DependencySlices) (reference : ℕ) : DependencySlices :=
  let dependencies :=
    slices.dependencies ++ inputs.prerequisitesOf devicePhaseByReference group reference
  ⟨Function.update slices.offsets (reference + 1) dependencies.length, dependencies⟩

/-- The slices and the largest number of device records after one more group. -/
def recordGroup (devicePhaseByReference : List (Option ℕ)) (state : DependencySlices × ℕ)
    (group : RateReleaseGroup) : DependencySlices × ℕ :=
  let references := List.range' group.firstReferenceIndex group.referenceCount
  let deviceRecords :=
    references.countP fun reference => (devicePhaseByReference.getD reference none).isSome
  (references.foldl (inputs.recordPrerequisites devicePhaseByReference group) state.1,
    max state.2 deviceRecords)

/-! ## The compiler -/

/-- The code of a criticality. -/
def criticalityCode : RateCriticality → ℕ
  | .background => 0
  | .normal => 1
  | .critical => 2
  | .unknown code => code.toNat

/-- Lower criticality first, then later registration. -/
def shedsBefore (left right : ℕ) : Bool :=
  let leftCriticality := criticalityCode (inputs.ratePlan.domains.getD left {}).criticality
  let rightCriticality := criticalityCode (inputs.ratePlan.domains.getD right {}).criticality
  if leftCriticality ≠ rightCriticality then leftCriticality < rightCriticality else left > right

/-- `optional_shed_order`. -/
def optionalShedOrder : List ℕ :=
  ((List.range inputs.ratePlan.domains.length).filter
    fun index => (inputs.ratePlan.domains.getD index {}).optional).insertionSort
      fun left right => inputs.shedsBefore left right

/-- The channels by the phase that produces them. -/
def producerChannels : Buckets :=
  Buckets.build inputs.ratePlan.bindings.length
    (inputs.channels.zipIdx.map fun entry => (entry.1.producer.index, entry.2))

/-- The channels with a device consumer by the phase that consumes them. -/
def consumerChannels : Buckets :=
  if inputs.channels.any fun channel => channel.consumerDevice.valid then
    Buckets.build inputs.ratePlan.bindings.length
      ((inputs.channels.zipIdx.filter fun entry => entry.1.consumerDevice.valid).map
        fun entry => (entry.1.consumer.index, entry.2))
  else {}

/-- The groups by their domain, in ascending sequence within the supercycle. -/
def domainGroups (groups : List RateReleaseGroup) : Buckets :=
  Buckets.build rateDomainCapacity
    (groups.zipIdx.map fun entry => (entry.1.domainRegistrationIndex, entry.2))

/-- The body of `compile_rate_dispatch`. -/
def compilePlan : Except RateDispatchDiagnostic CompiledRateDispatchPlan := do
  inputs.validate
  let state ← inputs.ratePlan.releases.zipIdx.foldlM inputs.admitRelease {}
  reject (state.previousFinish > inputs.ratePlan.supercycleNs.toNat)
    (dispatchFailureAt .invalidConfig
      "declared-budget admission is not idle at the supercycle boundary"
      (inputs.ratePlan.releases.length - 1))
  let records ← state.groups.foldlM countRecords fun _ => 0
  let (slices, maximum) :=
    state.groups.foldl (inputs.recordGroup state.devicePhaseByReference) ({}, 0)
  return {
    policy := inputs.policy
    admission := state.admission
    groups := state.groups
    domainGroupOffsets := (domainGroups state.groups).offsets
    domainGroupIndices := (domainGroups state.groups).slots
    recordsPerDomainRelease := records
    optionalShedOrder := inputs.optionalShedOrder
    producerChannelOffsets := inputs.producerChannels.offsets
    producerChannelIndices := inputs.producerChannels.slots
    consumerChannelOffsets := inputs.consumerChannels.offsets
    consumerChannelIndices := inputs.consumerChannels.slots
    devicePhaseByReference := state.devicePhaseByReference
    deviceDependencyOffsets := slices.offsets
    deviceDependencies := slices.dependencies
    maximumDeviceRecordsPerGroup := maximum }

end DispatchInputs

structure RateDispatchResult where
  status : Status
  output : CompiledRateDispatchPlan
  diagnostic : RateDispatchDiagnostic

/-- `compile_rate_dispatch`: `output` is replaced only after the complete simulation. -/
def compileRateDispatch (inputs : DispatchInputs) (output : CompiledRateDispatchPlan) :
    RateDispatchResult :=
  match inputs.compilePlan with
  | .ok candidate => ⟨.ok, candidate, {}⟩
  | .error diagnostic => ⟨diagnostic.status, output, diagnostic⟩

/-! ## Due work -/

/-- `ceil_div`; the increment is only reached with a remainder, hence below the maximum. -/
def ceilDiv (value divisor : ℕ) : Option ℕ :=
  if divisor = 0 then none
  else if value % divisor ≠ 0 then
    if value / divisor = u64Max then none else some (value / divisor + 1)
  else some (value / divisor)

/-- `RateDueCounts`. -/
structure RateDueCounts where
  domainReleases : ℕ := 0
  referenceRecords : ℕ := 0
  deriving DecidableEq, Repr

/-- `count_due_domain_releases`. -/
def countDueDomainReleases (plan : CompiledRatePlan) (dispatch : CompiledRateDispatchPlan)
    (domainIndex cursorNs endNs : ℕ) : Except Status RateDueCounts := do
  reject (cursorNs > endNs) .invalidArgument
  let domain ← orReject plan.domains[domainIndex]? .invalidArgument
  let records := dispatch.recordsPerDomainRelease domainIndex
  reject (domain.periodNs = 0 ∨ records = 0) .invalidArgument
  let firstSequence ← orReject (ceilDiv cursorNs domain.periodNs.toNat) .invalidArgument
  let endSequence ← orReject (ceilDiv endNs domain.periodNs.toNat) .invalidArgument
  reject (endSequence < firstSequence) .invalidArgument
  let referenceRecords ← orReject (checkedMultiply (endSequence - firstSequence) records)
    .capacityExceeded
  return ⟨endSequence - firstSequence, referenceRecords⟩

/-- One turn of the loop over the domains; every failure is reported as exhausted capacity. -/
def addDueDomain (plan : CompiledRatePlan) (dispatch : CompiledRateDispatchPlan)
    (cursorNs endNs : ℕ) (counts : RateDueCounts) (domainIndex : ℕ) :
    Except Status RateDueCounts := do
  let due ← (countDueDomainReleases plan dispatch domainIndex cursorNs endNs).mapError
    fun _ => .capacityExceeded
  let releases ← orReject (checkedAdd counts.domainReleases due.domainReleases) .capacityExceeded
  let records ← orReject (checkedAdd counts.referenceRecords due.referenceRecords)
    .capacityExceeded
  return ⟨releases, records⟩

/-- `count_due_rate_work`. -/
def countDueRateWork (plan : CompiledRatePlan) (dispatch : CompiledRateDispatchPlan)
    (cursorNs endNs : ℕ) : Except Status RateDueCounts := do
  reject (cursorNs > endNs) .invalidArgument
  (List.range plan.domains.length).foldlM (addDueDomain plan dispatch cursorNs endNs) {}

end RtRuntime
