import RtRuntime.RateTimeline

/-!
# Device handles, command batches and compiled device-rate records

The device side of a rate plan: handles, the copied command-batch declarations with
`validate_batch_declaration`, and the records the device-rate compiler produces. The
fixed-capacity arrays of a batch are functions of the index together with the capacity
constants.
-/

namespace RtRuntime

/-! ## Handles -/

/-- `invalid_device_handle`. -/
def invalidDeviceHandle : UInt64 := UInt64.ofNat u64Max

/-- `device_buffer_kind_bit`. -/
def deviceBufferKindBit : UInt32 := (1 : UInt32) <<< 31

/-- `device_handle_index_mask`. -/
def deviceHandleIndexMask : UInt32 := deviceBufferKindBit - 1

structure DeviceBackendHandle where
  value : UInt64 := invalidDeviceHandle
  deriving DecidableEq, Repr

structure DeviceBufferHandle where
  value : UInt64 := invalidDeviceHandle
  deriving DecidableEq, Repr

structure DeviceTimelineHandle where
  value : UInt64 := invalidDeviceHandle
  deriving DecidableEq, Repr

namespace DeviceBackendHandle

def make (owner index : UInt32) : DeviceBackendHandle :=
  ⟨(owner.toUInt64 <<< 32) ||| index.toUInt64⟩

def valid (h : DeviceBackendHandle) : Bool :=
  h.value ≠ invalidDeviceHandle ∧ h.value.toUInt32 &&& deviceBufferKindBit = 0

def owner (h : DeviceBackendHandle) : UInt32 := handleOwner h.value

def index (h : DeviceBackendHandle) : ℕ := (h.value.toUInt32 &&& deviceHandleIndexMask).toNat

/-- The handle is owned by the graph and within its inventory. -/
def belongs (graphOwner : UInt32) (count : ℕ) (h : DeviceBackendHandle) : Bool :=
  h.valid && h.owner = graphOwner && h.index < count

end DeviceBackendHandle

namespace DeviceBufferHandle

def make (owner index : UInt32) : DeviceBufferHandle :=
  ⟨(owner.toUInt64 <<< 32) ||| deviceBufferKindBit.toUInt64 ||| index.toUInt64⟩

def valid (h : DeviceBufferHandle) : Bool :=
  h.value ≠ invalidDeviceHandle ∧ h.value.toUInt32 &&& deviceBufferKindBit ≠ 0

def owner (h : DeviceBufferHandle) : UInt32 := handleOwner h.value

def index (h : DeviceBufferHandle) : ℕ := (h.value.toUInt32 &&& deviceHandleIndexMask).toNat

/-- The handle is owned by the graph and within its inventory. -/
def belongs (graphOwner : UInt32) (count : ℕ) (h : DeviceBufferHandle) : Bool :=
  h.valid && h.owner = graphOwner && h.index < count

end DeviceBufferHandle

namespace DeviceTimelineHandle

def make (owner index : UInt32) : DeviceTimelineHandle :=
  ⟨(owner.toUInt64 <<< 32) ||| index.toUInt64⟩

def valid (h : DeviceTimelineHandle) : Bool := h.value ≠ invalidDeviceHandle

def owner (h : DeviceTimelineHandle) : UInt32 := handleOwner h.value

def index (h : DeviceTimelineHandle) : ℕ := h.value.toUInt32.toNat

/-- The handle is owned by the graph and within its inventory. -/
def belongs (graphOwner : UInt32) (count : ℕ) (h : DeviceTimelineHandle) : Bool :=
  h.valid && h.owner = graphOwner && h.index < count

end DeviceTimelineHandle

/-! ## Command batches -/

def halV2CommandTimelineExtensionVersion : UInt32 := 1
def halV2CommandCapacity : ℕ := 16
def halV2TimelineWaitCapacity : ℕ := 8
def halV2TimelineSignalCapacity : ℕ := 8
def halV2InlinePayloadCapacity : ℕ := 128
def halV2BufferRefCapacity : ℕ := 8

/-- `sizeof` of the three records whose headers are checked. -/
def sizeofHalV2TimelinePoint : UInt32 := 48
def sizeofDeviceCommand : UInt32 := 544
def sizeofDeviceCommandBatch : UInt32 := 9584

/-- Access codes of a buffer reference. -/
def rtfwDeviceAccessRead : UInt32 := 1
def rtfwDeviceAccessWrite : UInt32 := 2
def rtfwDeviceAccessReadWrite : UInt32 := 3

/-- Flags of a registered buffer. -/
def rtfwDeviceBufferHostRead : UInt32 := 1
def rtfwDeviceBufferHostWrite : UInt32 := 2
def rtfwDeviceBufferDeviceRead : UInt32 := 4
def rtfwDeviceBufferDeviceWrite : UInt32 := 8

/-- Codes of `HalV2CommandKind`. -/
def commandKindInvalid : UInt32 := 0
def commandKindDispatch : UInt32 := 1
def commandKindCopy : UInt32 := 2
def commandKindMemorySynchronization : UInt32 := 3

/-- Codes of `HalV2MemoryOperation`. -/
def memoryOperationInvalid : UInt32 := 0
def memoryOperationCopyToDevice : UInt32 := 1
def memoryOperationCopyFromDevice : UInt32 := 2
def memoryOperationFlush : UInt32 := 3
def memoryOperationInvalidate : UInt32 := 4

structure HalV2BufferReference where
  bufferToken : UInt64 := 0
  access : UInt32 := 0
  reserved0 : UInt32 := 0
  offset : UInt64 := 0
  bytes : UInt64 := 0
  deriving DecidableEq, Repr

structure HalV2TimelinePoint where
  structSize : UInt32 := sizeofHalV2TimelinePoint
  extensionVersion : UInt32 := halV2CommandTimelineExtensionVersion
  timelineHandle : UInt64 := invalidDeviceHandle
  value : UInt64 := 0
  reserved : List UInt64 := []
  deriving DecidableEq, Repr

structure DeviceCommand where
  structSize : UInt32 := sizeofDeviceCommand
  extensionVersion : UInt32 := halV2CommandTimelineExtensionVersion
  kind : UInt32 := commandKindInvalid
  operation : UInt32 := memoryOperationInvalid
  opcode : UInt32 := 0
  flags : UInt32 := 0
  payloadSize : UInt32 := 0
  bufferCount : UInt32 := 0
  payload : ℕ → UInt8 := fun _ => 0
  buffers : ℕ → HalV2BufferReference := fun _ => {}
  source : HalV2BufferReference := {}
  destination : HalV2BufferReference := {}
  target : HalV2BufferReference := {}
  reserved : List UInt64 := []

structure DeviceCommandBatch where
  structSize : UInt32 := sizeofDeviceCommandBatch
  extensionVersion : UInt32 := halV2CommandTimelineExtensionVersion
  batchId : UInt64 := 0
  frameIndex : UInt64 := 0
  timeoutNs : UInt64 := 0
  commandCount : UInt32 := 0
  waitCount : UInt32 := 0
  signalCount : UInt32 := 0
  reserved0 : UInt32 := 0
  commands : ℕ → DeviceCommand := fun _ => {}
  waits : ℕ → HalV2TimelinePoint := fun _ => {}
  signals : ℕ → HalV2TimelinePoint := fun _ => {}
  reserved : List UInt64 := []

def allZero (values : List UInt64) : Bool := values.all (· = 0)

/-- `reference_zero`. -/
def HalV2BufferReference.zero (r : HalV2BufferReference) : Bool :=
  r.bufferToken = 0 && r.access = 0 && r.reserved0 = 0 && r.offset = 0 && r.bytes = 0

/-- `reference_declared`. -/
def HalV2BufferReference.declared (r : HalV2BufferReference) : Bool :=
  r.bufferToken ≠ 0 && r.reserved0 = 0 && r.bytes ≠ 0

/-- `point_header_valid`. -/
def HalV2TimelinePoint.headerValid (p : HalV2TimelinePoint) : Bool :=
  p.structSize = sizeofHalV2TimelinePoint &&
    p.extensionVersion = halV2CommandTimelineExtensionVersion && allZero p.reserved

/-- `inactive_point`. -/
def HalV2TimelinePoint.inactive (p : HalV2TimelinePoint) : Bool :=
  p.headerValid && p.timelineHandle = invalidDeviceHandle && p.value = 0

/-- The test of `validate_batch_shape` on a point within the count. -/
def HalV2TimelinePoint.active (p : HalV2TimelinePoint) : Bool :=
  p.headerValid && p.timelineHandle ≠ invalidDeviceHandle && p.value ≠ 0

namespace DeviceCommand

/-- `command_header_valid`. -/
def headerValid (c : DeviceCommand) : Bool :=
  c.structSize = sizeofDeviceCommand &&
    c.extensionVersion = halV2CommandTimelineExtensionVersion && allZero c.reserved

/-- The payload bytes from `start` on are zero. -/
def payloadZeroFrom (c : DeviceCommand) (start : ℕ) : Bool :=
  (List.range halV2InlinePayloadCapacity).all fun i => i < start || c.payload i = 0

def buffersZero (c : DeviceCommand) : Bool :=
  (List.range halV2BufferRefCapacity).all fun i => (c.buffers i).zero

/-- `inactive_command`. -/
def inactive (c : DeviceCommand) : Bool :=
  c.headerValid && c.kind = commandKindInvalid && c.operation = memoryOperationInvalid &&
    c.opcode = 0 && c.flags = 0 && c.payloadSize = 0 && c.bufferCount = 0 &&
    c.payloadZeroFrom 0 && c.source.zero && c.destination.zero && c.target.zero && c.buffersZero

/-- The fields a copy or synchronization command leaves at zero. -/
def plain (c : DeviceCommand) : Bool :=
  c.opcode = 0 && c.flags = 0 && c.payloadSize = 0 && c.bufferCount = 0 && c.payloadZeroFrom 0 &&
    c.buffersZero

/-- `active_command`. -/
def active (c : DeviceCommand) : Bool :=
  c.headerValid &&
    if c.kind = commandKindDispatch then
      c.operation = memoryOperationInvalid && c.flags = 0 &&
        c.payloadSize.toNat ≤ halV2InlinePayloadCapacity &&
        c.bufferCount.toNat ≤ halV2BufferRefCapacity &&
        c.source.zero && c.destination.zero && c.target.zero &&
        ((List.range halV2BufferRefCapacity).all fun i =>
          if i < c.bufferCount.toNat then (c.buffers i).declared else (c.buffers i).zero) &&
        c.payloadZeroFrom c.payloadSize.toNat
    else if c.kind = commandKindCopy then
      (c.operation = memoryOperationCopyToDevice || c.operation = memoryOperationCopyFromDevice) &&
        c.plain && c.source.declared && c.destination.declared && c.target.zero
    else if c.kind = commandKindMemorySynchronization then
      (c.operation = memoryOperationFlush || c.operation = memoryOperationInvalidate) &&
        c.plain && c.source.zero && c.destination.zero && c.target.declared
    else false

end DeviceCommand

/-- `validate_batch_shape`. -/
def validateBatchShape (b : DeviceCommandBatch) : Bool :=
  b.structSize = sizeofDeviceCommandBatch &&
    b.extensionVersion = halV2CommandTimelineExtensionVersion &&
    b.batchId = 0 && b.frameIndex = 0 && b.timeoutNs ≠ 0 &&
    b.commandCount ≠ 0 && b.commandCount.toNat ≤ halV2CommandCapacity &&
    b.waitCount.toNat ≤ halV2TimelineWaitCapacity &&
    b.signalCount ≠ 0 && b.signalCount.toNat ≤ halV2TimelineSignalCapacity &&
    b.reserved0 = 0 && allZero b.reserved &&
    ((List.range halV2CommandCapacity).all fun i =>
      if i < b.commandCount.toNat then (b.commands i).active else (b.commands i).inactive) &&
    ((List.range halV2TimelineWaitCapacity).all fun i =>
      if i < b.waitCount.toNat then (b.waits i).active else (b.waits i).inactive) &&
    ((List.range halV2TimelineSignalCapacity).all fun i =>
      if i < b.signalCount.toNat then (b.signals i).active else (b.signals i).inactive)

/-- `validate_batch_declaration`: a batch shape without identity, timeout and values. -/
def validateBatchDeclaration (d : DeviceCommandBatch) : Bool :=
  ((List.range d.waitCount.toNat).all fun i => (d.waits i).value = 0) &&
    ((List.range d.signalCount.toNat).all fun i => (d.signals i).value = 0) &&
    d.batchId = 0 && d.frameIndex = 0 && d.timeoutNs = 0 &&
    validateBatchShape { d with
      timeoutNs := 1
      waits := fun i =>
        if i < d.waitCount.toNat then { d.waits i with value := 1 } else d.waits i
      signals := fun i =>
        if i < d.signalCount.toNat then { d.signals i with value := 1 } else d.signals i }

/-! ## Compiled device-rate records -/

/-- `DeviceRatePayloadRole`; a code outside the enumeration is `unknown`. -/
inductive DeviceRatePayloadRole where
  | input
  | output
  | inputOutput
  | unknown (code : UInt8)
  deriving DecidableEq, Repr

inductive DeviceRateReferenceKind where
  | dispatchBuffer
  | copySource
  | copyDestination
  | synchronizationTarget
  deriving DecidableEq, Repr

inductive DeviceRateTimelineRole where
  | wait
  | signal
  deriving DecidableEq, Repr

/-- `DeviceRateSimulationPolicy`. -/
structure DeviceRateSimulationPolicy where
  hostWatchdogNs : UInt64 := 0
  deriving DecidableEq, Repr

structure CompiledDeviceRatePhase where
  phase : PhaseHandle := {}
  domain : RateDomainHandle := {}
  backend : DeviceBackendHandle := {}
  compiledPhaseIndex : ℕ := 0
  completionBudgetNs : UInt64 := 0
  maximumInFlight : UInt32 := 0
  commandCount : UInt32 := 0
  waitCount : UInt32 := 0
  signalCount : UInt32 := 0
  firstCommandIndex : ℕ := 0
  firstPayloadReferenceIndex : ℕ := 0
  payloadReferenceCount : ℕ := 0
  firstTimelineReferenceIndex : ℕ := 0
  timelineReferenceCount : ℕ := 0
  completionTimestampDomainIdentity : UInt64 := 0
  simulation : Option DeviceRateSimulationPolicy := none
  deriving DecidableEq, Repr

structure CompiledDeviceRateCommand where
  phase : PhaseHandle := {}
  commandIndex : ℕ := 0
  kind : UInt32 := commandKindInvalid
  operation : UInt32 := memoryOperationInvalid
  opcode : UInt32 := 0
  flags : UInt32 := 0
  firstPayloadReferenceIndex : ℕ := 0
  payloadReferenceCount : ℕ := 0
  deriving DecidableEq, Repr

structure CompiledDeviceRatePayloadReference where
  phase : PhaseHandle := {}
  backend : DeviceBackendHandle := {}
  buffer : DeviceBufferHandle := {}
  commandIndex : ℕ := 0
  commandReferenceIndex : ℕ := 0
  kind : DeviceRateReferenceKind := .dispatchBuffer
  role : DeviceRatePayloadRole := .input
  access : UInt32 := 0
  offset : UInt64 := 0
  bytes : UInt64 := 0
  deriving DecidableEq, Repr

structure CompiledDeviceRateTimelineReference where
  phase : PhaseHandle := {}
  backend : DeviceBackendHandle := {}
  timeline : DeviceTimelineHandle := {}
  role : DeviceRateTimelineRole := .wait
  declarationIndex : ℕ := 0
  deriving DecidableEq, Repr

inductive DeviceRateAdmissionConstraint where
  | phaseInFlight
  | backendInFlight
  | runtimeOutstanding
  | completionBatch
  deriving DecidableEq, Repr

structure DeviceRateAdmissionBackend where
  backend : DeviceBackendHandle := {}
  maximumInFlight : UInt32 := 0
  completionBatchCapacity : UInt32 := 0
  peakInFlight : UInt32 := 0
  peakCompletions : UInt32 := 0
  deriving DecidableEq, Repr

structure DeviceRateAdmissionPhase where
  phase : PhaseHandle := {}
  backend : DeviceBackendHandle := {}
  completionBudgetNs : UInt64 := 0
  maximumInFlight : UInt32 := 0
  peakInFlight : UInt32 := 0
  deriving DecidableEq, Repr

structure DeviceRateAdmissionInterval where
  referenceIndex : ℕ := 0
  phase : PhaseHandle := {}
  domain : RateDomainHandle := {}
  backend : DeviceBackendHandle := {}
  releaseTimeNs : UInt64 := 0
  completionDeadlineNs : UInt64 := 0
  substepOrdinal : UInt32 := 0
  optional : Bool := false
  carriesAcrossSupercycle : Bool := false
  constrainingCapacity : DeviceRateAdmissionConstraint := .phaseInFlight
  constrainingLimit : UInt32 := 0
  demandAtRelease : UInt32 := 0
  deriving DecidableEq, Repr

structure DeviceRateAdmissionReport where
  supercycleNs : UInt64 := 0
  runtimeOutstandingCapacity : UInt32 := 0
  runtimeCompletionBatchCapacity : UInt32 := 0
  peakGlobalInFlight : UInt32 := 0
  backendCount : ℕ := 0
  phaseCount : ℕ := 0
  intervalCount : ℕ := 0
  deriving DecidableEq, Repr

structure CompiledDeviceRatePlan where
  phases : List CompiledDeviceRatePhase := []
  commands : List CompiledDeviceRateCommand := []
  payloadReferences : List CompiledDeviceRatePayloadReference := []
  timelineReferences : List CompiledDeviceRateTimelineReference := []
  report : DeviceRateAdmissionReport := {}
  admissionBackends : List DeviceRateAdmissionBackend := []
  admissionPhases : List DeviceRateAdmissionPhase := []
  admissionIntervals : List DeviceRateAdmissionInterval := []
  deriving DecidableEq, Repr

end RtRuntime
