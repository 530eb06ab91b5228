import RtRuntime.DeviceTypes
import RtRuntime.CompiledGraph

/-!
# The cross-rate data compiler

`compile_cross_rate_data` decides at compile time which producer sample each consumer
release of a channel reads. A channel gets two tables, one for the first supercycle,
where a consumer may still see the initial sample, and one for every later supercycle,
where the newest sample may stem from the cycle before. A missing reference index is
`none` here where the source stores the largest index.
-/

namespace RtRuntime

/-! ## Inputs and results -/

/-- `CrossRateMode`; a code outside the enumeration is `unknown`. -/
inductive CrossRateMode where
  | sampleAndHold
  | unknown (code : UInt8)
  deriving DecidableEq, Repr

inductive CrossRateSelectionHorizon where
  | firstSupercycle
  | repeatingSupercycle
  deriving DecidableEq, Repr

inductive CrossRateSampleProvenance where
  | initialSample
  | produced
  deriving DecidableEq, Repr

inductive CrossRateFreshness where
  | fresh
  | stale
  deriving DecidableEq, Repr

/-- Handle of a channel: both kind bits are set. -/
structure CrossRateChannelHandle where
  value : UInt64 := invalidGraphHandle
  deriving DecidableEq, Repr

def CrossRateChannelHandle.make (owner index : UInt32) : CrossRateChannelHandle :=
  ⟨encodeHandle owner (graphResourceKindBit ||| graphRateDomainKindBit) index⟩

/-- `CrossRateDeviceEndpointSelector`; an unset ordinal is `none`. -/
structure CrossRateDeviceEndpointSelector where
  payloadReferenceOrdinal : Option ℕ := none
  slotStrideBytes : UInt64 := 0
  deriving DecidableEq, Repr

def CrossRateDeviceEndpointSelector.valid (s : CrossRateDeviceEndpointSelector) : Bool :=
  s.payloadReferenceOrdinal.isSome && s.slotStrideBytes ≠ 0

/-- Some field of the selector is set. -/
def CrossRateDeviceEndpointSelector.isPartial (s : CrossRateDeviceEndpointSelector) : Bool :=
  s.payloadReferenceOrdinal.isSome || s.slotStrideBytes ≠ 0

structure CrossRateChannelSpec where
  name : List Char := []
  producer : PhaseHandle := {}
  consumer : PhaseHandle := {}
  payloadSize : ℕ := 0
  initialSample : List UInt8 := []
  mode : CrossRateMode := .sampleAndHold
  maximumAgeNs : UInt64 := UInt64.ofNat u64Max
  producerDevice : CrossRateDeviceEndpointSelector := {}
  consumerDevice : CrossRateDeviceEndpointSelector := {}
  deriving DecidableEq, Repr

/-- `CrossRateDeviceBufferSource`, with the size of its host storage. -/
structure CrossRateDeviceBufferSource where
  buffer : DeviceBufferHandle := {}
  backend : DeviceBackendHandle := {}
  storageSize : ℕ := 0
  bytes : UInt64 := 0
  access : UInt32 := 0
  coherency : UInt32 := 0
  byteGranularity : UInt64 := 1
  offsetGranularity : UInt64 := 1
  deriving DecidableEq, Repr

structure CompiledCrossRateDeviceEndpoint where
  channelIndex : ℕ := 0
  producer : Bool := false
  phase : PhaseHandle := {}
  backend : DeviceBackendHandle := {}
  buffer : DeviceBufferHandle := {}
  referenceKind : DeviceRateReferenceKind := .dispatchBuffer
  commandIndex : ℕ := 0
  commandReferenceIndex : ℕ := 0
  envelopeOffset : UInt64 := 0
  envelopeBytes : UInt64 := 0
  slotStrideBytes : UInt64 := 0
  slotCount : UInt32 := 0
  timestampDomainIdentity : UInt64 := 0
  deriving DecidableEq, Repr

structure CompiledCrossRateSelection where
  channel : CrossRateChannelHandle := {}
  channelRegistrationIndex : ℕ := 0
  producer : PhaseHandle := {}
  consumer : PhaseHandle := {}
  producerDomain : RateDomainHandle := {}
  consumerDomain : RateDomainHandle := {}
  horizon : CrossRateSelectionHorizon := .firstSupercycle
  consumerReferenceIndex : Option ℕ := none
  consumerReleaseSequence : UInt64 := UInt64.ofNat u64Max
  consumerSubstepOrdinal : UInt32 := UInt32.ofNat (2 ^ 32 - 1)
  producerReferenceIndex : Option ℕ := none
  producerReleaseSequence : UInt64 := UInt64.ofNat u64Max
  producerSubstepOrdinal : UInt32 := UInt32.ofNat (2 ^ 32 - 1)
  sourceCycleOffset : ℤ := 0
  ageNs : UInt64 := 0
  provenance : CrossRateSampleProvenance := .initialSample
  held : Bool := false
  freshness : CrossRateFreshness := .fresh
  deriving DecidableEq, Repr

/-- `CompiledCrossRateChannel`, the descriptor of a channel. -/
structure CompiledCrossRateChannel where
  channel : CrossRateChannelHandle := {}
  name : List Char := []
  registrationIndex : ℕ := 0
  producer : PhaseHandle := {}
  consumer : PhaseHandle := {}
  producerDomain : RateDomainHandle := {}
  consumerDomain : RateDomainHandle := {}
  producerCompiledPhaseIndex : ℕ := 0
  consumerCompiledPhaseIndex : ℕ := 0
  payloadSize : ℕ := 0
  mode : CrossRateMode := .sampleAndHold
  maximumAgeNs : UInt64 := UInt64.ofNat u64Max
  firstSelectionIndex : ℕ := 0
  selectionCount : ℕ := 0
  snapshotSlotCount : ℕ := 0
  snapshotBytes : ℕ := 0
  producerDevice : CrossRateDeviceEndpointSelector := {}
  consumerDevice : CrossRateDeviceEndpointSelector := {}
  producerDeviceBackend : DeviceBackendHandle := {}
  consumerDeviceBackend : DeviceBackendHandle := {}
  producerDeviceBuffer : DeviceBufferHandle := {}
  consumerDeviceBuffer : DeviceBufferHandle := {}
  producerDeviceBaseOffset : UInt64 := 0
  consumerDeviceBaseOffset : UInt64 := 0
  producerDeviceSlotCount : UInt32 := 0
  consumerDeviceSlotCount : UInt32 := 0
  producerTimestampDomainIdentity : UInt64 := 1
  deriving DecidableEq, Repr

/-- The geometry of a `SnapshotStore` as `create` makes it. -/
structure SnapshotStore where
  payloadSize : ℕ := 0
  slotCount : ℕ := 0
  payloadStorageBytes : ℕ := 0
  nextGeneration : UInt64 := 1
  deriving DecidableEq, Repr

structure CompiledCrossRatePlan where
  channels : List CompiledCrossRateChannel := []
  selections : List CompiledCrossRateSelection := []
  stores : List SnapshotStore := []
  deviceEndpoints : List CompiledCrossRateDeviceEndpoint := []
  deviceEndpointIndexByChannel : List (Option ℕ) := []
  deriving DecidableEq, Repr

def crossRateChannelCapacity : ℕ := 256
def crossRateChannelNameCapacity : ℕ := 64
def crossRatePayloadCapacity : ℕ := 64 * 1024
def crossRateInitialBytesCapacity : ℕ := 1024 * 1024
def crossRateSelectionCapacity : ℕ := 262144
def crossRateSnapshotSlotCount : ℕ := 2
def crossRateSnapshotBytesCapacity : ℕ := 2 * 1024 * 1024

/-- `cross_rate_runtime_logical_timestamp_domain_identity`. -/
def crossRateRuntimeLogicalTimestampDomainIdentity : UInt64 := 1

/-- `HalV2MemoryCoherency::host_coherent`. -/
def memoryCoherencyHostCoherent : UInt32 := 1

/-- `SnapshotStore::create`; allocation failure aside, it only checks its sizes. -/
def SnapshotStore.create (payloadSize slotCount : ℕ) : Except Status SnapshotStore := do
  reject (payloadSize = 0 ∨ slotCount = 0) .invalidConfig
  let payloadBytes ← orReject (checkedMultiply payloadSize slotCount) .invalidConfig
  return {
    payloadSize := payloadSize
    slotCount := slotCount
    payloadStorageBytes := payloadBytes }

/-- A status returned by a helper, reported with the caller's message. -/
def withMessage {α : Type} (x : Except Status α) (message : String) :
    Except RateCompileDiagnostic α :=
  x.mapError fun status => rateFailure status message

/-! ## Device endpoints -/

/-- The role and access codes that let an endpoint write (producer) or read (consumer). -/
def endpointRoleOk (producer : Bool) (role : DeviceRatePayloadRole) : Bool :=
  if producer then role = .output || role = .inputOutput else role = .input || role = .inputOutput

def endpointAccessOk (producer : Bool) (access : UInt32) : Bool :=
  if producer then access = rtfwDeviceAccessWrite || access = rtfwDeviceAccessReadWrite
  else access = rtfwDeviceAccessRead || access = rtfwDeviceAccessReadWrite

/-- The buffer lets the host take the endpoint's side of the transfer. -/
def endpointBufferOk (producer : Bool) (payloadSize : ℕ)
    (selector : CrossRateDeviceEndpointSelector)
    (reference : CompiledDeviceRatePayloadReference) (buffer : CrossRateDeviceBufferSource) :
    Bool :=
  let hostAccess := if producer then rtfwDeviceBufferHostRead else rtfwDeviceBufferHostWrite
  buffer.storageSize ≠ 0 && buffer.access &&& hostAccess ≠ 0 &&
    buffer.coherency = memoryCoherencyHostCoherent &&
    buffer.byteGranularity ≠ 0 && buffer.offsetGranularity ≠ 0 &&
    payloadSize % buffer.byteGranularity.toNat = 0 &&
    payloadSize ≤ selector.slotStrideBytes.toNat &&
    selector.slotStrideBytes % buffer.offsetGranularity = 0 &&
    reference.offset % buffer.offsetGranularity = 0

/-- The last slot of the endpoint lies in the admitted envelope and in the buffer. -/
def endpointFits (payloadSize : ℕ) (maximumInFlight : UInt32)
    (selector : CrossRateDeviceEndpointSelector)
    (reference : CompiledDeviceRatePayloadReference) (buffer : CrossRateDeviceBufferSource) :
    Bool :=
  let fits : Option Bool := do
    let slotDelta ←
      checkedMultiply (maximumInFlight.toNat - 1) selector.slotStrideBytes.toNat
    let finalOffset ← checkedAdd reference.offset.toNat slotDelta
    let finalEnd ← checkedAdd finalOffset payloadSize
    let envelopeEnd ← checkedAdd reference.offset.toNat reference.bytes.toNat
    return finalEnd ≤ envelopeEnd && finalEnd ≤ buffer.bytes.toNat && finalEnd ≤ buffer.storageSize
  fits.getD false

/-- `compile_device_endpoint`. -/
def compileDeviceEndpoint (deviceRatePlan : Option CompiledDeviceRatePlan)
    (deviceBuffers : List CrossRateDeviceBufferSource) (channel : CrossRateChannelSpec)
    (producer : Bool) : Except Status CompiledCrossRateDeviceEndpoint := do
  let phase := if producer then channel.producer else channel.consumer
  let selector := if producer then channel.producerDevice else channel.consumerDevice
  let plan ← orReject deviceRatePlan .invalidConfig
  reject (selector.valid = false) .invalidConfig
  let phaseRecord ← orReject (plan.phases.find? (fun p => p.phase = phase)) .invalidConfig
  let ordinal := selector.payloadReferenceOrdinal.getD 0
  reject (ordinal ≥ phaseRecord.payloadReferenceCount ∨ phaseRecord.maximumInFlight = 0)
    .invalidConfig
  let reference ← orReject
    plan.payloadReferences[phaseRecord.firstPayloadReferenceIndex + ordinal]? .invalidConfig
  let buffer ← orReject
    (deviceBuffers.find? (fun b => b.buffer = reference.buffer ∧ b.backend = reference.backend))
    .invalidConfig
  reject (!(endpointRoleOk producer reference.role) || !(endpointAccessOk producer reference.access)
      || !(endpointBufferOk producer channel.payloadSize selector reference buffer)
      || !(endpointFits channel.payloadSize phaseRecord.maximumInFlight selector reference buffer))
    .invalidConfig
  return {
    producer := producer
    phase := phase
    backend := reference.backend
    buffer := reference.buffer
    referenceKind := reference.kind
    commandIndex := reference.commandIndex
    commandReferenceIndex := reference.commandReferenceIndex
    envelopeOffset := reference.offset
    envelopeBytes := reference.bytes
    slotStrideBytes := selector.slotStrideBytes
    slotCount := phaseRecord.maximumInFlight
    timestampDomainIdentity :=
      if producer then phaseRecord.completionTimestampDomainIdentity
      else crossRateRuntimeLogicalTimestampDomainIdentity }

/-! ## Validation -/

/-- `binding_by_phase` after one more compiled binding. -/
def recordEndpointBinding (graphOwner : UInt32) (phaseCount domainCount : ℕ)
    (bindingByPhase : ℕ → Option ℕ) (entry : CompiledRateBinding × ℕ) :
    Except RateCompileDiagnostic (ℕ → Option ℕ) := do
  let (binding, index) := entry
  reject (!(binding.phase.belongs graphOwner phaseCount) ||
      !(binding.domain.belongs graphOwner domainCount) ||
      !(binding.compiledPhaseIndex < phaseCount) ||
      (bindingByPhase binding.phase.index).isSome)
    (rateFailure .invalidHandle "cross-rate endpoint binding is invalid or duplicated")
  return Function.update bindingByPhase binding.phase.index (some index)

/-- The running totals of the validation loop. -/
structure ChannelTotals where
  initialBytes : ℕ := 0
  snapshotBytes : ℕ := 0
  selectionCount : ℕ := 0

/-- The inputs shared by all steps of one compilation. -/
structure CrossRateInputs where
  graphOwner : UInt32
  phaseCount : ℕ
  ratePlan : CompiledRatePlan
  channels : List CrossRateChannelSpec
  deviceRatePlan : Option CompiledDeviceRatePlan
  deviceBuffers : List CrossRateDeviceBufferSource
  snapshotSlotCounts : List ℕ

namespace CrossRateInputs

variable (inputs : CrossRateInputs)

/-- `snapshot_slots`. -/
def snapshotSlots (index : ℕ) : ℕ :=
  if inputs.snapshotSlotCounts.isEmpty then crossRateSnapshotSlotCount
  else inputs.snapshotSlotCounts.getD index 0

/-- The compiled binding found through `binding_by_phase`. -/
def bindingOf (bindingByPhase : ℕ → Option ℕ) (phase : PhaseHandle) : CompiledRateBinding :=
  inputs.ratePlan.bindings.getD ((bindingByPhase phase.index).getD 0) {}

/-- `valid_name` of the channel compiler. -/
def validChannelName (name : List Char) : Bool :=
  !name.isEmpty && name.length < crossRateChannelNameCapacity && name.all validNameCharacter

variable (channel : CrossRateChannelSpec)

/-- Device endpoints need a complete selector, and at most one side is a device. -/
def selectorsInvalid (producerDevice consumerDevice : Bool) :
    Bool :=
  (producerDevice && consumerDevice) ||
    (producerDevice ≠ channel.producerDevice.valid) ||
    (consumerDevice ≠ channel.consumerDevice.valid) ||
    (channel.producerDevice.isPartial ≠ producerDevice) ||
    (channel.consumerDevice.isPartial ≠ consumerDevice)

/-- A device endpoint has to compile; its record is made again in the second pass. -/
def checkEndpoint (producerDevice consumerDevice : Bool) :
    Except RateCompileDiagnostic Unit :=
  if producerDevice || consumerDevice then
    (withMessage
      (compileDeviceEndpoint inputs.deviceRatePlan inputs.deviceBuffers channel producerDevice)
      "cross-rate device endpoint is inaccessible or conflicts with its admitted payload envelope").map fun _ => ()
  else .ok ()

/-- The first validation pass over one channel. -/
def checkChannel (bindingByPhase : ℕ → Option ℕ) (totals : ChannelTotals)
    (entry : CrossRateChannelSpec × ℕ) : Except RateCompileDiagnostic ChannelTotals := do
  let (channel, index) := entry
  reject (!(validChannelName channel.name) || channel.mode ≠ .sampleAndHold ||
      channel.payloadSize = 0 || !(channel.payloadSize ≤ crossRatePayloadCapacity) ||
      channel.initialSample.length ≠ channel.payloadSize)
    (rateFailure .invalidConfig
      "cross-rate channel name, mode, payload, or initial sample is invalid")
  reject (!(channel.producer.belongs inputs.graphOwner inputs.phaseCount) ||
      !(channel.consumer.belongs inputs.graphOwner inputs.phaseCount))
    (rateFailure .invalidHandle "cross-rate channel contains an invalid or foreign endpoint")
  reject (channel.producer = channel.consumer)
    (rateFailure .invalidConfig "cross-rate channel endpoints must be distinct")
  reject (bindingByPhase channel.producer.index = none ∨
      bindingByPhase channel.consumer.index = none)
    (rateFailure .invalidConfig "cross-rate endpoint is not bound exactly once")
  let producerBinding := inputs.bindingOf bindingByPhase channel.producer
  let consumerBinding := inputs.bindingOf bindingByPhase channel.consumer
  let producerDevice : Bool := producerBinding.phaseKind = .device
  let consumerDevice : Bool := consumerBinding.phaseKind = .device
  reject (selectorsInvalid channel producerDevice consumerDevice)
    (rateFailure .invalidConfig
      "cross-rate device endpoint selector is missing, malformed, or device-to-device")
  inputs.checkEndpoint channel producerDevice consumerDevice
  reject (producerBinding.domain = consumerBinding.domain)
    (rateFailure .invalidConfig "cross-rate endpoints must use different rate domains")
  forM (inputs.channels.take index) fun earlier => do
    reject (earlier.name = channel.name)
      (rateFailure .invalidConfig "cross-rate channel names must be unique")
    reject (earlier.producer = channel.producer ∧ earlier.consumer = channel.consumer)
      (rateFailure .invalidConfig "duplicate cross-rate semantic edge")
  let storage := rateFailure .capacityExceeded "cross-rate aggregate payload storage exceeded"
  let initialBytes ← orReject
    (checkedAdd totals.initialBytes channel.initialSample.length) storage
  reject (initialBytes > crossRateInitialBytesCapacity) storage
  let channelBytes ← orReject
    (checkedMultiply channel.payloadSize (inputs.snapshotSlots index)) storage
  let snapshotBytes ← orReject (checkedAdd totals.snapshotBytes channelBytes) storage
  reject (snapshotBytes > crossRateSnapshotBytesCapacity) storage
  let capacity := rateFailure .capacityExceeded "cross-rate selection capacity exceeded"
  let consumerReleases := inputs.ratePlan.releases.countP (fun r => r.phase = channel.consumer)
  reject (consumerReleases = 0) capacity
  let channelSelections ← orReject (checkedMultiply consumerReleases 2) capacity
  let selectionCount ← orReject (checkedAdd totals.selectionCount channelSelections) capacity
  reject (selectionCount > crossRateSelectionCapacity) capacity
  return ⟨initialBytes, snapshotBytes, selectionCount⟩

/-! ## Selection tables -/

/-- `checked_age`. -/
def checkedAge (supercycle producerTime consumerTime : ℕ) (priorCycle : Bool) : Option ℕ :=
  if !priorCycle then
    if producerTime > consumerTime then none else some (consumerTime - producerTime)
  else
    let priorTail := supercycle - producerTime
    if consumerTime > u64Max - priorTail then none else some (priorTail + consumerTime)

/-- Indices of the reference releases of one phase, ascending. -/
def referencesOf (phase : PhaseHandle) : List ℕ :=
  (List.range inputs.ratePlan.releases.length).filter
    fun index => (inputs.ratePlan.releases.getD index {}).phase = phase

/-- The last producer reference before `reference` in its cycle: the element before the
position of `std::lower_bound`. -/
def inCycleReference (producerReleases : List ℕ) (reference : ℕ) : Option ℕ :=
  (producerReleases.takeWhile (· < reference)).getLast?

def freshnessOf (maximumAge age : ℕ) : CrossRateFreshness :=
  if maximumAge = u64Max ∨ age ≤ maximumAge then .fresh else .stale

/-- `make_selection`. -/
def makeSelection (channelIndex : ℕ)
    (producerBinding consumerBinding : CompiledRateBinding) (producerReleases : List ℕ)
    (consumerReference : ℕ) (steady : Bool) : CompiledCrossRateSelection :=
  let consumerRelease := inputs.ratePlan.releases.getD consumerReference {}
  let inCycle := inCycleReference producerReleases consumerReference
  let base : CompiledCrossRateSelection := {
    channel := CrossRateChannelHandle.make inputs.graphOwner (UInt32.ofNat channelIndex)
    channelRegistrationIndex := channelIndex
    producer := channel.producer
    consumer := channel.consumer
    producerDomain := producerBinding.domain
    consumerDomain := consumerBinding.domain
    horizon := if steady then .repeatingSupercycle else .firstSupercycle
    consumerReferenceIndex := some consumerReference
    consumerReleaseSequence := consumerRelease.domainReleaseSequence
    consumerSubstepOrdinal := consumerRelease.substepOrdinal }
  let selection :=
    if !steady && inCycle.isNone then
      { base with provenance := .initialSample, ageNs := consumerRelease.releaseTimeNs }
    else
      let sourceReference := inCycle.getD (producerReleases.getLast?.getD 0)
      let source := inputs.ratePlan.releases.getD sourceReference {}
      let age := checkedAge inputs.ratePlan.supercycleNs.toNat source.releaseTimeNs.toNat
        consumerRelease.releaseTimeNs.toNat inCycle.isNone
      { base with
        provenance := .produced
        producerReferenceIndex := if age.isSome then some sourceReference else none
        producerReleaseSequence := source.domainReleaseSequence
        producerSubstepOrdinal := source.substepOrdinal
        sourceCycleOffset := if inCycle.isSome then 0 else -1
        ageNs := UInt64.ofNat (age.getD 0) }
  { selection with
    freshness := freshnessOf channel.maximumAgeNs.toNat selection.ageNs.toNat }

/-- The two selections of one consumer reference. -/
def selectFor (channelIndex : ℕ)
    (producerBinding consumerBinding : CompiledRateBinding) (producerReleases : List ℕ)
    (consumerReference : ℕ) :
    Except RateCompileDiagnostic (CompiledCrossRateSelection × CompiledCrossRateSelection) := do
  let first := inputs.makeSelection channel channelIndex producerBinding consumerBinding
    producerReleases consumerReference false
  let repeating := inputs.makeSelection channel channelIndex producerBinding consumerBinding
    producerReleases consumerReference true
  let inCycle := inCycleReference producerReleases consumerReference
  reject ((inCycle.isNone ∧ repeating.producerReferenceIndex = none) ∨
      (inCycle.isSome ∧ first.producerReferenceIndex = none))
    (rateFailure .capacityExceeded "cross-rate freshness age is not representable")
  return (first, repeating)

end CrossRateInputs

/-- `SourceKey`. -/
structure SourceKey where
  provenance : CrossRateSampleProvenance
  referenceIndex : Option ℕ
  cycle : ℤ
  deriving DecidableEq, Repr

/-- `source_key`. -/
def sourceKey (selection : CompiledCrossRateSelection) (targetCycle : ℤ) : SourceKey :=
  ⟨selection.provenance, selection.producerReferenceIndex,
    targetCycle + selection.sourceCycleOffset⟩

/-- The loop that marks a selection held when its source is that of its predecessor. -/
def markHeld : Option SourceKey → List CompiledCrossRateSelection →
    List CompiledCrossRateSelection
  | _, [] => []
  | previous, selection :: rest =>
    { selection with held := previous = some (sourceKey selection 0) } ::
      markHeld (some (sourceKey selection 0)) rest

/-- First-cycle and repeating table of one channel, with the held marks. -/
def heldTables (pairs : List (CompiledCrossRateSelection × CompiledCrossRateSelection)) :
    List CompiledCrossRateSelection × List CompiledCrossRateSelection :=
  let first := pairs.map Prod.fst
  let repeating := pairs.map Prod.snd
  (markHeld none first,
    markHeld (repeating.getLast?.map fun last => sourceKey last (-1)) repeating)

/-- The order the tables are stored in: first and repeating record of each consumer. -/
def interleave (first repeating : List CompiledCrossRateSelection) :
    List CompiledCrossRateSelection :=
  (first.zip repeating).flatMap fun pair => [pair.1, pair.2]

/-! ## The compiler -/

namespace CrossRateInputs

variable (inputs : CrossRateInputs)

/-- The envelope test against an endpoint placed before on the same buffer. -/
def envelopesOverlap (endpoint prior : CompiledCrossRateDeviceEndpoint) (endpointEnd : ℕ) : Bool :=
  match checkedAdd prior.envelopeOffset.toNat prior.envelopeBytes.toNat with
  | none => true
  | some priorEnd => endpoint.envelopeOffset.toNat < priorEnd &&
    prior.envelopeOffset.toNat < endpointEnd

/-- The device endpoint of a channel, checked against the endpoints placed before it. -/
def placeEndpoint (channel : CrossRateChannelSpec) (channelIndex : ℕ) (producer : Bool)
    (placed : List CompiledCrossRateDeviceEndpoint) :
    Except RateCompileDiagnostic CompiledCrossRateDeviceEndpoint := do
  let compiled ← withMessage
    (compileDeviceEndpoint inputs.deviceRatePlan inputs.deviceBuffers channel producer)
    "cross-rate device endpoint compilation failed"
  let endpoint := { compiled with channelIndex := channelIndex }
  let endpointEnd ← orReject
    (checkedAdd endpoint.envelopeOffset.toNat endpoint.envelopeBytes.toNat)
    (rateFailure .capacityExceeded "cross-rate device endpoint envelope overflowed")
  forM placed fun prior =>
    reject (prior.buffer = endpoint.buffer ∧ envelopesOverlap endpoint prior endpointEnd)
      (rateFailure .invalidConfig "cross-rate device endpoint envelopes overlap")
  return endpoint

/-- The endpoint of a channel with a device side. -/
def channelEndpoint (channel : CrossRateChannelSpec) (channelIndex : ℕ)
    (producerDevice consumerDevice : Bool) (placed : List CompiledCrossRateDeviceEndpoint) :
    Except RateCompileDiagnostic (Option CompiledCrossRateDeviceEndpoint) :=
  if producerDevice || consumerDevice then
    (inputs.placeEndpoint channel channelIndex producerDevice placed).map some
  else .ok none

/-- The descriptor of a channel. -/
def describeChannel (channel : CrossRateChannelSpec) (channelIndex : ℕ)
    (producerBinding consumerBinding : CompiledRateBinding)
    (endpoint : Option CompiledCrossRateDeviceEndpoint)
    (firstSelectionIndex consumerCount snapshotBytes : ℕ) : CompiledCrossRateChannel :=
  let base : CompiledCrossRateChannel := {
    channel := CrossRateChannelHandle.make inputs.graphOwner (UInt32.ofNat channelIndex)
    name := channel.name
    registrationIndex := channelIndex
    producer := channel.producer
    consumer := channel.consumer
    producerDomain := producerBinding.domain
    consumerDomain := consumerBinding.domain
    producerCompiledPhaseIndex := producerBinding.compiledPhaseIndex
    consumerCompiledPhaseIndex := consumerBinding.compiledPhaseIndex
    payloadSize := channel.payloadSize
    mode := channel.mode
    maximumAgeNs := channel.maximumAgeNs
    firstSelectionIndex := firstSelectionIndex
    selectionCount := consumerCount * 2
    snapshotSlotCount := inputs.snapshotSlots channelIndex
    snapshotBytes := snapshotBytes
    producerDevice := channel.producerDevice
    consumerDevice := channel.consumerDevice }
  match endpoint with
  | none => base
  | some e =>
    if e.producer then
      { base with
        producerDeviceBackend := e.backend
        producerDeviceBuffer := e.buffer
        producerDeviceBaseOffset := e.envelopeOffset
        producerDeviceSlotCount := e.slotCount
        producerTimestampDomainIdentity := e.timestampDomainIdentity }
    else
      { base with
        consumerDeviceBackend := e.backend
        consumerDeviceBuffer := e.buffer
        consumerDeviceBaseOffset := e.envelopeOffset
        consumerDeviceSlotCount := e.slotCount }

/-- The candidate plan after one more channel. -/
def compileChannel (bindingByPhase : ℕ → Option ℕ) (candidate : CompiledCrossRatePlan)
    (entry : CrossRateChannelSpec × ℕ) : Except RateCompileDiagnostic CompiledCrossRatePlan := do
  let (channel, channelIndex) := entry
  let producerBinding := inputs.bindingOf bindingByPhase channel.producer
  let consumerBinding := inputs.bindingOf bindingByPhase channel.consumer
  let endpoint ← inputs.channelEndpoint channel channelIndex (producerBinding.phaseKind = .device)
    (consumerBinding.phaseKind = .device) candidate.deviceEndpoints
  let producerReleases := inputs.referencesOf channel.producer
  let consumerReleases := inputs.referencesOf channel.consumer
  reject (producerReleases = [] ∨ consumerReleases = [])
    (rateFailure .invalidConfig "cross-rate endpoint has no reference release")
  let pairs ← consumerReleases.mapM
    (inputs.selectFor channel channelIndex producerBinding consumerBinding producerReleases)
  let tables := heldTables pairs
  let snapshotBytes ← orReject
    (checkedMultiply channel.payloadSize (inputs.snapshotSlots channelIndex))
    (rateFailure .capacityExceeded "cross-rate snapshot size is not representable")
  let store ← withMessage
    (SnapshotStore.create channel.payloadSize (inputs.snapshotSlots channelIndex))
    "cross-rate snapshot store construction failed"
  return {
    channels := candidate.channels ++ [inputs.describeChannel channel channelIndex producerBinding
      consumerBinding endpoint candidate.selections.length tables.1.length snapshotBytes]
    selections := candidate.selections ++ interleave tables.1 tables.2
    stores := candidate.stores ++ [store]
    deviceEndpoints := candidate.deviceEndpoints ++ endpoint.toList
    deviceEndpointIndexByChannel :=
      if endpoint.isSome then
        candidate.deviceEndpointIndexByChannel.set channelIndex
          (some candidate.deviceEndpoints.length)
      else candidate.deviceEndpointIndexByChannel }

/-- The body of `compile_cross_rate_data` for at least one channel. -/
def compilePlan : Except RateCompileDiagnostic CompiledCrossRatePlan := do
  reject (inputs.ratePlan.domains.isEmpty)
    (rateFailure .invalidConfig "cross-rate channels require an explicit rate model")
  reject (inputs.channels.length > crossRateChannelCapacity ∨
      inputs.ratePlan.bindings.length ≠ inputs.phaseCount)
    (rateFailure .capacityExceeded "cross-rate channel or binding capacity exceeded")
  let bindingByPhase ← inputs.ratePlan.bindings.zipIdx.foldlM
    (recordEndpointBinding inputs.graphOwner inputs.phaseCount inputs.ratePlan.domains.length)
    (fun _ => none)
  let _totals ← inputs.channels.zipIdx.foldlM (inputs.checkChannel bindingByPhase) {}
  let anyDevice := inputs.channels.any
    fun channel => channel.producerDevice.valid || channel.consumerDevice.valid
  let start : CompiledCrossRatePlan := {
    deviceEndpointIndexByChannel :=
      if anyDevice then List.replicate inputs.channels.length none else [] }
  inputs.channels.zipIdx.foldlM (inputs.compileChannel bindingByPhase) start

end CrossRateInputs

structure CrossRateCompileResult where
  status : Status
  output : CompiledCrossRatePlan
  diagnostic : RateCompileDiagnostic
  deriving DecidableEq, Repr

/-- `compile_cross_rate_data`: `output` is replaced only after complete validation. -/
def compileCrossRateData (inputs : CrossRateInputs) (output : CompiledCrossRatePlan) :
    CrossRateCompileResult :=
  if (!inputs.snapshotSlotCounts.isEmpty &&
        inputs.snapshotSlotCounts.length ≠ inputs.channels.length) ||
      inputs.snapshotSlotCounts.any (fun count => count ≠ 2 && count ≠ 4) then
    let diagnostic :=
      rateFailure .invalidArgument "cross-rate snapshot slot counts are invalid"
    ⟨diagnostic.status, output, diagnostic⟩
  else if inputs.channels.isEmpty then ⟨.ok, {}, {}⟩
  else
    match inputs.compilePlan with
    | .ok candidate => ⟨.ok, candidate, {}⟩
    | .error diagnostic => ⟨diagnostic.status, output, diagnostic⟩

end RtRuntime
