import RtRuntime.CrossRateData
import RtRuntime.CyclicSweep

/-!
# The device-rate compiler

`compile_device_rate_plan` checks the device bindings against the copied command-batch
declarations and the inventories, and then admits the device releases: every release
occupies its phase, its backend and the runtime from its release to the earlier of its
deadline and its budget. The intervals of the endlessly repeated supercycle are swept in
one pass over a single period that begins with the intervals crossing its end.
-/

namespace RtRuntime

open Function

/-! ## Inputs -/

/-- `HalV2CommandTimelineCapabilities`, the limits that are read here. -/
structure HalV2CommandTimelineCapabilities where
  maxInFlightBatches : UInt32 := 0
  maxCommandsPerBatch : UInt32 := 0
  maxWaitPoints : UInt32 := 0
  maxSignalPoints : UInt32 := 0
  completionBatchCapacity : UInt32 := 0
  deriving DecidableEq, Repr

structure DeviceRateBackendSource where
  backend : DeviceBackendHandle := {}
  capabilities : HalV2CommandTimelineCapabilities := {}
  completionTimestampDomainIdentity : UInt64 := 0
  completionTimestampDomainValid : Bool := false
  deterministicMock : Bool := false
  deriving DecidableEq, Repr

structure DeviceRateBufferSource where
  buffer : DeviceBufferHandle := {}
  backend : DeviceBackendHandle := {}
  bytes : UInt64 := 0
  access : UInt32 := 0
  byteGranularity : UInt64 := 1
  offsetGranularity : UInt64 := 1
  deriving DecidableEq, Repr

structure DeviceRateTimelineSource where
  timeline : DeviceTimelineHandle := {}
  backend : DeviceBackendHandle := {}
  initialValue : UInt64 := 0
  deriving DecidableEq, Repr

structure DeviceRatePhaseSource where
  phase : PhaseHandle := {}
  backend : DeviceBackendHandle := {}
  declaration : Option DeviceCommandBatch := none

structure DeviceRateBindingSpec where
  phase : PhaseHandle := {}
  domain : RateDomainHandle := {}
  completionBudgetNs : UInt64 := 0
  maximumInFlight : UInt32 := 0
  payloadRoles : List DeviceRatePayloadRole := []
  simulation : Option DeviceRateSimulationPolicy := none
  deriving DecidableEq, Repr

structure DeviceRateInputs where
  graphOwner : UInt32
  runtimeOutstandingCapacity : UInt32
  runtimeCompletionBatchCapacity : UInt32
  ratePlan : CompiledRatePlan
  bindings : List DeviceRateBindingSpec
  backends : List DeviceRateBackendSource
  buffers : List DeviceRateBufferSource
  timelines : List DeviceRateTimelineSource
  phases : List DeviceRatePhaseSource

structure DeviceRateDiagnostic where
  status : Status := .ok
  message : Option String := none
  referenceIndex : Option ℕ := none
  phase : PhaseHandle := {}
  deriving DecidableEq, Repr

/-- `fail` without a phase. -/
def deviceFailure (status : Status) (message : String) : DeviceRateDiagnostic :=
  { status := status, message := some message }

/-- `fail` with the phase at fault. -/
def deviceFailureOf (status : Status) (message : String) (phase : PhaseHandle) :
    DeviceRateDiagnostic :=
  { status := status, message := some message, phase := phase }

/-- `fail` with the phase and the reference record at fault. -/
def deviceFailureAt (status : Status) (message : String) (phase : PhaseHandle) (reference : ℕ) :
    DeviceRateDiagnostic :=
  { status := status, message := some message, referenceIndex := some reference, phase := phase }

/-- `device_rate_simulation_watchdog_limit_ns`. -/
def deviceRateSimulationWatchdogLimitNs : UInt64 := 60000000000

/-- `valid_simulation_policy`. -/
def validSimulationPolicy : Option DeviceRateSimulationPolicy → Bool
  | none => true
  | some policy =>
    policy.hostWatchdogNs ≠ 0 && policy.hostWatchdogNs ≤ deviceRateSimulationWatchdogLimitNs

/-! ## Inventories -/

/-- A loop that fills a table from handle index to position; a handle outside the inventory
or seen before is refused. -/
def inventory {α : Type} (accepts : α → Bool) (index : α → ℕ) (message : String)
    (sources : List α) : Except DeviceRateDiagnostic (ℕ → Option ℕ) :=
  sources.zipIdx.foldlM (fun table entry => do
    reject (!accepts entry.1 || (table (index entry.1)).isSome)
      (deviceFailure .invalidHandle message)
    return update table (index entry.1) (some entry.2)) fun _ => none

namespace DeviceRateInputs

variable (inputs : DeviceRateInputs)

/-- `backend_source_by_index`. -/
def backendSourceByIndex : Except DeviceRateDiagnostic (ℕ → Option ℕ) :=
  inventory (fun source : DeviceRateBackendSource =>
      source.backend.belongs inputs.graphOwner inputs.backends.length)
    (fun source => source.backend.index)
    "device-rate backend inventory contains an invalid, foreign, or duplicate handle"
    inputs.backends

/-- `buffer_source_by_index`. -/
def bufferSourceByIndex : Except DeviceRateDiagnostic (ℕ → Option ℕ) :=
  inventory (fun source : DeviceRateBufferSource =>
      source.buffer.belongs inputs.graphOwner inputs.buffers.length)
    (fun source => source.buffer.index)
    "device-rate buffer inventory contains an invalid, foreign, or duplicate handle"
    inputs.buffers

/-- `timeline_source_by_index`. -/
def timelineSourceByIndex : Except DeviceRateDiagnostic (ℕ → Option ℕ) :=
  inventory (fun source : DeviceRateTimelineSource =>
      source.timeline.belongs inputs.graphOwner inputs.timelines.length)
    (fun source => source.timeline.index)
    "device-rate timeline inventory contains an invalid, foreign, or duplicate handle"
    inputs.timelines

/-- `phase_source_by_index`. -/
def phaseSourceByIndex : Except DeviceRateDiagnostic (ℕ → Option ℕ) :=
  inventory (fun source : DeviceRatePhaseSource =>
      source.phase.belongs inputs.graphOwner inputs.ratePlan.bindings.length)
    (fun source => source.phase.index)
    "device-rate phase inventory contains an invalid, foreign, or duplicate handle"
    inputs.phases

/-- The four tables. -/
structure Inventories where
  backendSourceByIndex : ℕ → Option ℕ
  bufferSourceByIndex : ℕ → Option ℕ
  timelineSourceByIndex : ℕ → Option ℕ
  phaseSourceByIndex : ℕ → Option ℕ

def inventories : Except DeviceRateDiagnostic Inventories := do
  let backends ← inputs.backendSourceByIndex
  let buffers ← inputs.bufferSourceByIndex
  let timelines ← inputs.timelineSourceByIndex
  let phases ← inputs.phaseSourceByIndex
  return ⟨backends, buffers, timelines, phases⟩

variable (tables : Inventories)

/-- `find_buffer`. -/
def findBuffer (handle : DeviceBufferHandle) :
    Option DeviceRateBufferSource :=
  if handle.belongs inputs.graphOwner inputs.buffers.length then
    (tables.bufferSourceByIndex handle.index).bind fun position => inputs.buffers[position]?
  else none

/-- `timeline_ordinal`. -/
def timelineOrdinal (handle : DeviceTimelineHandle) : Option ℕ :=
  if handle.belongs inputs.graphOwner inputs.timelines.length then
    tables.timelineSourceByIndex handle.index
  else none

/-- `find_timeline`. -/
def findTimeline (handle : DeviceTimelineHandle) :
    Option DeviceRateTimelineSource :=
  (inputs.timelineOrdinal tables handle).bind fun position => inputs.timelines[position]?

/-! ## Order of the bindings -/

/-- `compiled_index_by_phase`. -/
def compiledIndexByPhase : ℕ → Option ℕ :=
  inputs.ratePlan.bindings.foldl (fun table binding =>
    if binding.phase.belongs inputs.graphOwner inputs.ratePlan.bindings.length then
      update table binding.phase.index (some binding.compiledPhaseIndex)
    else table) fun _ => none

/-- `compiled_index_by_binding`. -/
def compiledIndexOf (binding : DeviceRateBindingSpec) : Option ℕ :=
  if binding.phase.belongs inputs.graphOwner inputs.ratePlan.bindings.length then
    inputs.compiledIndexByPhase binding.phase.index
  else none

/-- Bindings are taken by compiled position, then by index; a missing position comes last. -/
def bindingKey (index : ℕ) : ℕ ×ₗ ℕ ×ₗ ℕ :=
  match inputs.compiledIndexOf (inputs.bindings.getD index {}) with
  | some position => toLex (0, toLex (position, index))
  | none => toLex (1, toLex (0, index))

/-- `binding_order`. -/
def bindingOrder : List ℕ :=
  (List.range inputs.bindings.length).insertionSort
    fun left right => inputs.bindingKey left ≤ inputs.bindingKey right

/-! ## One device binding -/

/-- `role_matches`. -/
def roleMatches (role : DeviceRatePayloadRole) (access : UInt32) : Bool :=
  (role = .input && access = rtfwDeviceAccessRead) ||
    (role = .output && access = rtfwDeviceAccessWrite) ||
    (role = .inputOutput && access = rtfwDeviceAccessReadWrite)

/-- `required_access`. -/
def requiredAccess (access : UInt32) : UInt32 :=
  if access = rtfwDeviceAccessRead then rtfwDeviceBufferDeviceRead
  else if access = rtfwDeviceAccessWrite then rtfwDeviceBufferDeviceWrite
  else if access = rtfwDeviceAccessReadWrite then
    rtfwDeviceBufferDeviceRead ||| rtfwDeviceBufferDeviceWrite
  else 0

/-- The reference lies in the buffer, on its granularity and within its access. -/
def referenceValid (reference : HalV2BufferReference) (source : DeviceRateBufferSource)
    (backend : DeviceBackendHandle) (role : DeviceRatePayloadRole) : Bool :=
  source.backend = backend && requiredAccess reference.access ≠ 0 &&
    (requiredAccess reference.access &&& ~~~ source.access) = 0 &&
    roleMatches role reference.access && reference.bytes ≠ 0 &&
    reference.offset ≤ source.bytes && reference.bytes ≤ source.bytes - reference.offset &&
    source.byteGranularity ≠ 0 && source.offsetGranularity ≠ 0 &&
    reference.bytes % source.byteGranularity = 0 &&
    reference.offset % source.offsetGranularity = 0

/-- The payload references collected so far and the roles not yet used. -/
structure PayloadState where
  references : List CompiledDeviceRatePayloadReference
  roles : List DeviceRatePayloadRole

/-- A buffer reference of a command with its index and kind. -/
structure CommandReference where
  reference : HalV2BufferReference
  index : ℕ
  kind : DeviceRateReferenceKind

/-- The buffer references of a command in the order they are checked. -/
def commandReferences (command : DeviceCommand) : List CommandReference :=
  if command.kind = commandKindDispatch then
    (List.range command.bufferCount.toNat).map fun i => ⟨command.buffers i, i, .dispatchBuffer⟩
  else if command.kind = commandKindCopy then
    [⟨command.source, 0, .copySource⟩, ⟨command.destination, 1, .copyDestination⟩]
  else [⟨command.target, 0, .synchronizationTarget⟩]

/-- `add_reference`. -/
def addReference (phase : PhaseHandle) (backend : DeviceBackendHandle)
    (commandIndex : ℕ) (state : PayloadState) (entry : CommandReference) :
    Except DeviceRateDiagnostic PayloadState := do
  let mismatch := deviceFailureOf .invalidConfig
    "device-rate payload roles do not exactly match the copied declaration" phase
  let role ← orReject state.roles.head? mismatch
  let buffer : DeviceBufferHandle := ⟨entry.reference.bufferToken⟩
  let source ← orReject (inputs.findBuffer tables buffer) mismatch
  reject (referenceValid entry.reference source backend role = false) mismatch
  return {
    references := state.references ++ [{
      phase := phase
      backend := backend
      buffer := buffer
      commandIndex := commandIndex
      commandReferenceIndex := entry.index
      kind := entry.kind
      role := role
      access := entry.reference.access
      offset := entry.reference.offset
      bytes := entry.reference.bytes }]
    roles := state.roles.tail }

/-- The compiled commands and the payload state. -/
structure CommandState where
  commands : List CompiledDeviceRateCommand
  payload : PayloadState

/-- One command of the declaration. -/
def compileCommand (phase : PhaseHandle) (backend : DeviceBackendHandle)
    (declaration : DeviceCommandBatch) (state : CommandState) (commandIndex : ℕ) :
    Except DeviceRateDiagnostic CommandState := do
  let command := declaration.commands commandIndex
  let payload ← (commandReferences command).foldlM
    (inputs.addReference tables phase backend commandIndex) state.payload
  return {
    commands := state.commands ++ [{
      phase := phase
      commandIndex := commandIndex
      kind := command.kind
      operation := command.operation
      opcode := command.opcode
      flags := command.flags
      firstPayloadReferenceIndex := state.payload.references.length
      payloadReferenceCount := payload.references.length - state.payload.references.length }]
    payload := payload }

/-- The loop over the wait or the signal points of a declaration. -/
def compileTimelines (phase : PhaseHandle) (backend : DeviceBackendHandle)
    (role : DeviceRateTimelineRole) (message : String) (points : ℕ → HalV2TimelinePoint)
    (count : ℕ) : Except DeviceRateDiagnostic (List CompiledDeviceRateTimelineReference) :=
  (List.range count).mapM fun index => do
    let failure := deviceFailureOf .invalidConfig message phase
    let timeline : DeviceTimelineHandle := ⟨(points index).timelineHandle⟩
    let source ← orReject (inputs.findTimeline tables timeline) failure
    reject (source.backend ≠ backend ∨
      (List.range index).any (fun prior => (points prior).timelineHandle = timeline.value)) failure
    return {
      phase := phase
      backend := backend
      timeline := timeline
      role := role
      declarationIndex := index }

/-- The accumulators of the loop over the bindings. -/
structure PhaseTables where
  phases : List CompiledDeviceRatePhase := []
  commands : List CompiledDeviceRateCommand := []
  payloadReferences : List CompiledDeviceRatePayloadReference := []
  timelineReferences : List CompiledDeviceRateTimelineReference := []
  planPhaseByRegistration : ℕ → Option ℕ := fun _ => none
  backendUsed : ℕ → Bool := fun _ => false

/-- The binding names a device phase of the rate plan and has a positive budget. -/
def bindingValid (state : PhaseTables) (binding : DeviceRateBindingSpec)
    (compiledBinding : CompiledRateBinding) : Bool :=
  binding.phase.belongs inputs.graphOwner inputs.ratePlan.bindings.length &&
    binding.domain.belongs inputs.graphOwner inputs.ratePlan.domains.length &&
    binding.completionBudgetNs ≠ 0 && binding.maximumInFlight ≠ 0 &&
    validSimulationPolicy binding.simulation &&
    compiledBinding.domain = binding.domain && compiledBinding.phaseKind = .device &&
    (state.planPhaseByRegistration binding.phase.index).isNone

/-- The declaration fits the capabilities of the backend. -/
def declarationFits (binding : DeviceRateBindingSpec) (backend : DeviceRateBackendSource)
    (declaration : DeviceCommandBatch) : Bool :=
  backend.completionTimestampDomainValid && backend.completionTimestampDomainIdentity ≠ 0 &&
    validateBatchDeclaration declaration &&
    declaration.commandCount ≤ backend.capabilities.maxCommandsPerBatch &&
    declaration.waitCount ≤ backend.capabilities.maxWaitPoints &&
    declaration.signalCount ≤ backend.capabilities.maxSignalPoints &&
    binding.maximumInFlight ≤ backend.capabilities.maxInFlightBatches

/-- The phase source found through `phase_source_by_index`. -/
def phaseSourceOf (phase : PhaseHandle) : Option DeviceRatePhaseSource :=
  if phase.belongs inputs.graphOwner inputs.ratePlan.bindings.length then
    (tables.phaseSourceByIndex phase.index).bind fun position => inputs.phases[position]?
  else none

/-- The position of a backend found through `backend_source_by_index`. -/
def backendSourceOf (backend : DeviceBackendHandle) : Option ℕ :=
  if backend.belongs inputs.graphOwner inputs.backends.length then
    tables.backendSourceByIndex backend.index
  else none

/-- One turn of the loop over the bindings. -/
def compileBinding (state : PhaseTables) (bindingIndex : ℕ) :
    Except DeviceRateDiagnostic PhaseTables := do
  let binding := inputs.bindings.getD bindingIndex {}
  let invalid := deviceFailureOf .invalidConfig
    "device-rate binding has invalid ownership, policy, or rate identity" binding.phase
  let source ← orReject (inputs.phaseSourceOf tables binding.phase) invalid
  let declaration ← orReject source.declaration invalid
  let compiledBinding ← orReject
    ((inputs.compiledIndexOf binding).bind fun index => inputs.ratePlan.bindings[index]?) invalid
  reject (inputs.bindingValid state binding compiledBinding = false) invalid
  let position ← orReject (inputs.backendSourceOf tables source.backend)
    (deviceFailureOf .invalidHandle
      "device-rate phase references an invalid or foreign backend" binding.phase)
  let backend := inputs.backends.getD position {}
  reject (binding.simulation.isSome && !backend.deterministicMock)
    (deviceFailureOf .invalidConfig
      "simulation timing requires a deterministic mock backend" binding.phase)
  reject (declarationFits binding backend declaration = false)
    (deviceFailureOf .invalidConfig
      "device-rate phase exceeds command, timeline, timestamp, or in-flight capability"
      binding.phase)
  let compiled ← (List.range declaration.commandCount.toNat).foldlM
    (inputs.compileCommand tables binding.phase source.backend declaration)
    ⟨state.commands, ⟨state.payloadReferences, binding.payloadRoles⟩⟩
  reject (compiled.payload.roles ≠ [])
    (deviceFailureOf .invalidConfig "device-rate payload-role inventory has extra entries"
      binding.phase)
  let waits ← inputs.compileTimelines tables binding.phase source.backend .wait
    "device-rate wait timeline is foreign or duplicated" declaration.waits
    declaration.waitCount.toNat
  let signals ← inputs.compileTimelines tables binding.phase source.backend .signal
    "device-rate signal timeline is foreign or duplicated" declaration.signals
    declaration.signalCount.toNat
  return {
    phases := state.phases ++ [{
      phase := binding.phase
      domain := binding.domain
      backend := source.backend
      compiledPhaseIndex := compiledBinding.compiledPhaseIndex
      completionBudgetNs := binding.completionBudgetNs
      maximumInFlight := binding.maximumInFlight
      commandCount := declaration.commandCount
      waitCount := declaration.waitCount
      signalCount := declaration.signalCount
      firstCommandIndex := state.commands.length
      firstPayloadReferenceIndex := state.payloadReferences.length
      payloadReferenceCount :=
        compiled.payload.references.length - state.payloadReferences.length
      firstTimelineReferenceIndex := state.timelineReferences.length
      timelineReferenceCount := waits.length + signals.length
      completionTimestampDomainIdentity := backend.completionTimestampDomainIdentity
      simulation := binding.simulation }]
    commands := compiled.commands
    payloadReferences := compiled.payload.references
    timelineReferences := state.timelineReferences ++ waits ++ signals
    planPhaseByRegistration := update state.planPhaseByRegistration binding.phase.index
      (some state.phases.length)
    backendUsed := update state.backendUsed position true }

/-! ## Timelines -/

/-- The timeline references of a phase with one role. -/
def timelinesOf (tables : PhaseTables) (phase : CompiledDeviceRatePhase)
    (role : DeviceRateTimelineRole) : List CompiledDeviceRateTimelineReference :=
  ((tables.timelineReferences.drop phase.firstTimelineReferenceIndex).take
    phase.timelineReferenceCount).filter fun reference => reference.role = role

variable (inventories : Inventories)

/-- `signal_owner` after the signals of one phase. -/
def recordSignals (tables : PhaseTables) (owner : ℕ → Option ℕ)
    (entry : CompiledDeviceRatePhase × ℕ) : Except DeviceRateDiagnostic (ℕ → Option ℕ) :=
  (timelinesOf tables entry.1 .signal).foldlM (fun owner reference => do
    let failure := deviceFailureOf .invalidConfig
      "device-rate timeline progress has multiple signal owners" entry.1.phase
    let ordinal ← orReject (inputs.timelineOrdinal inventories reference.timeline) failure
    reject ((owner ordinal).isSome) failure
    return update owner ordinal (some entry.2)) owner

/-- `wait_graph` and `indegree`. -/
structure WaitGraph where
  successors : ℕ → List ℕ := fun _ => []
  indegree : ℕ → ℕ := fun _ => 0

/-- An edge is entered once. -/
def WaitGraph.addEdge (graph : WaitGraph) (owner phaseIndex : ℕ) : WaitGraph :=
  if phaseIndex ∈ graph.successors owner then graph
  else
    ⟨update graph.successors owner (graph.successors owner ++ [phaseIndex]),
      update graph.indegree phaseIndex (graph.indegree phaseIndex + 1)⟩

/-- The wait graph after the waits of one phase. -/
def recordWaits (tables : PhaseTables)
    (signalOwner : ℕ → Option ℕ) (graph : WaitGraph) (entry : CompiledDeviceRatePhase × ℕ) :
    Except DeviceRateDiagnostic WaitGraph :=
  (timelinesOf tables entry.1 .wait).foldlM (fun graph reference => do
    let unavailable := deviceFailureOf .invalidConfig "device-rate wait cannot be proven available"
      entry.1.phase
    let ordinal ← orReject (inputs.timelineOrdinal inventories reference.timeline) unavailable
    match signalOwner ordinal with
    | none =>
      reject ((inputs.timelines.getD ordinal {}).initialValue = 0) unavailable
      return graph
    | some owner =>
      reject (owner = entry.2)
        (deviceFailureOf .invalidConfig "device-rate wait graph contains a cycle" entry.1.phase)
      return graph.addEdge owner entry.2) graph

/-- `ready` as a stack with its top first, `indegree` and `visited`. -/
structure WaitSearch where
  ready : List ℕ
  indegree : ℕ → ℕ
  visited : ℕ := 0

/-- The successor loses one prerequisite. -/
def WaitSearch.decrement (search : WaitSearch) (next : ℕ) : WaitSearch :=
  let remaining := wrappingPred (search.indegree next)
  { search with
    ready := if remaining = 0 then next :: search.ready else search.ready
    indegree := update search.indegree next remaining }

/-- The loop that takes phases without open prerequisites; every phase is pushed at most
once, which bounds the fuel. -/
def waitLoop (graph : WaitGraph) : ℕ → WaitSearch → WaitSearch
  | 0, search => search
  | fuel + 1, search =>
    match search.ready with
    | [] => search
    | current :: ready =>
      waitLoop graph fuel ((graph.successors current).foldl WaitSearch.decrement
        { search with ready := ready, visited := search.visited + 1 })

/-- All timelines have one owner, and every wait is available without a cycle. -/
def checkTimelines (tables : PhaseTables) :
    Except DeviceRateDiagnostic Unit := do
  let signalOwner ← tables.phases.zipIdx.foldlM (inputs.recordSignals inventories tables)
    fun _ => none
  let graph ← tables.phases.zipIdx.foldlM (inputs.recordWaits inventories tables signalOwner) {}
  let ready :=
    ((List.range tables.phases.length).filter fun index => graph.indegree index = 0).reverse
  let search := waitLoop graph (tables.phases.length + 1) ⟨ready, graph.indegree, 0⟩
  reject (search.visited ≠ tables.phases.length)
    (deviceFailure .invalidConfig "device-rate wait graph contains a cycle")

/-! ## Intervals -/

/-- The capacity that constrains a release first. -/
def constraintOf (phaseLimit backendLimit runtimeLimit : UInt32) :
    DeviceRateAdmissionConstraint × UInt32 :=
  let constraint : DeviceRateAdmissionConstraint × UInt32 := (.phaseInFlight, phaseLimit)
  let constraint :=
    if backendLimit < constraint.2 then (.backendInFlight, backendLimit) else constraint
  if runtimeLimit < constraint.2 then (.runtimeOutstanding, runtimeLimit) else constraint

/-- `admission_intervals`, `events` and `completions`; the item of an event is the index of
its interval. -/
structure IntervalState where
  intervals : List DeviceRateAdmissionInterval := []
  events : List (SweepEvent ℕ) := []
  completions : List (ℕ × ℕ) := []

/-- The backend limits as the intervals read them. -/
def backendLimit (backend : DeviceBackendHandle) : UInt32 :=
  (inputs.backends.getD ((inventories.backendSourceByIndex backend.index).getD 0)
    {}).capabilities.maxInFlightBatches

/-- The interval entered for a device record that completes at `completion`. -/
def admissionInterval (phase : CompiledDeviceRatePhase)
    (entry : ReferenceRelease × ℕ) (completion : ℕ) : DeviceRateAdmissionInterval :=
  let constraint := constraintOf phase.maximumInFlight
    (inputs.backendLimit inventories phase.backend) inputs.runtimeOutstandingCapacity
  { referenceIndex := entry.2
    phase := entry.1.phase
    domain := entry.1.domain
    backend := phase.backend
    releaseTimeNs := entry.1.releaseTimeNs
    completionDeadlineNs := UInt64.ofNat completion
    substepOrdinal := entry.1.substepOrdinal
    optional := entry.1.optional
    carriesAcrossSupercycle := completion > inputs.ratePlan.supercycleNs.toNat
    constrainingCapacity := constraint.1
    constrainingLimit := constraint.2 }

/-- The interval of one reference record, if it is a device record. -/
def collectInterval (tables : PhaseTables) (state : IntervalState)
    (entry : ReferenceRelease × ℕ) : Except DeviceRateDiagnostic IntervalState :=
  let (release, referenceIndex) := entry
  if release.phaseKind ≠ .device then .ok state
  else do
    let supercycle := inputs.ratePlan.supercycleNs.toNat
    let phaseIndex ← orReject (tables.planPhaseByRegistration release.phase.index)
      (deviceFailureAt .invalidConfig
        "active device reference has no admitted command-batch policy" release.phase
        referenceIndex)
    let phase := tables.phases.getD phaseIndex {}
    let budgetDeadline ← orReject
      (checkedAdd release.releaseTimeNs.toNat phase.completionBudgetNs.toNat)
      (deviceFailureAt .capacityExceeded "device-rate completion-budget arithmetic overflowed"
        release.phase referenceIndex)
    let completion := min release.deadlineTimeNs.toNat budgetDeadline
    reject (completion ≤ release.releaseTimeNs.toNat ∨
        completion - release.releaseTimeNs.toNat > supercycle)
      (deviceFailureAt .invalidConfig
        "device-rate completion cannot drain within one repeating horizon" release.phase
        referenceIndex)
    let intervalIndex := state.intervals.length
    let carry : Bool := completion > supercycle
    let intervals := state.intervals ++
      [inputs.admissionInterval inventories phase entry completion]
    if release.optional then return { state with intervals := intervals }
    else return {
      intervals := intervals
      events := state.events ++ [⟨release.releaseTimeNs.toNat, true, intervalIndex⟩,
        ⟨if carry then completion - supercycle else completion, false, intervalIndex⟩]
      completions := state.completions ++ [(completion % supercycle, intervalIndex)] }

/-- The order of the events: time, then stops before starts, then interval. -/
def eventKey (event : SweepEvent ℕ) : ℕ ×ₗ ℕ ×ₗ ℕ :=
  toLex (event.time, toLex (event.release.toNat, event.item))

def sortEvents (events : List (SweepEvent ℕ)) : List (SweepEvent ℕ) :=
  events.insertionSort fun left right => eventKey left ≤ eventKey right

/-! ## The sweep -/

/-- `phase_demand`, `backend_demand` and `global_demand`, 32 bits each. -/
structure Demand where
  phase : ℕ → UInt32 := fun _ => 0
  backend : ℕ → UInt32 := fun _ => 0
  global : UInt32 := 0

/-- One more interval is open. -/
def Demand.raise (demand : Demand) (phase backend : ℕ) : Demand :=
  ⟨update demand.phase phase (demand.phase phase + 1),
    update demand.backend backend (demand.backend backend + 1), demand.global + 1⟩

/-- One interval is closed. -/
def Demand.lower (demand : Demand) (phase backend : ℕ) : Demand :=
  ⟨update demand.phase phase (demand.phase phase - 1),
    update demand.backend backend (demand.backend backend - 1), demand.global - 1⟩

/-- What the sweep reads: the tables of the phases and the intervals. -/
structure SweepInputs where
  inventories : Inventories
  tables : PhaseTables
  intervals : List DeviceRateAdmissionInterval

namespace SweepInputs

variable (sweep : SweepInputs)

def interval (index : ℕ) : DeviceRateAdmissionInterval := sweep.intervals.getD index {}

/-- `phase_index_for` of an interval. -/
def phaseIndex (interval : DeviceRateAdmissionInterval) : ℕ :=
  (sweep.tables.planPhaseByRegistration interval.phase.index).getD 0

/-- `backend_index_for` of an interval. -/
def backendIndex (interval : DeviceRateAdmissionInterval) : ℕ :=
  (sweep.inventories.backendSourceByIndex interval.backend.index).getD 0

end SweepInputs

variable (sweep : SweepInputs)

/-- One of the three capacities is exceeded at the interval. -/
def exceeds (demand : Demand) (interval : DeviceRateAdmissionInterval) :
    Bool :=
  let phaseIndex := sweep.phaseIndex interval
  let backendIndex := sweep.backendIndex interval
  demand.phase phaseIndex > (sweep.tables.phases.getD phaseIndex {}).maximumInFlight ||
    demand.backend backendIndex >
      (inputs.backends.getD backendIndex {}).capabilities.maxInFlightBatches ||
    demand.global > inputs.runtimeOutstandingCapacity

/-- The intervals that cross the end of the supercycle are open when it begins. -/
def countCarry (demand : Demand) (interval : DeviceRateAdmissionInterval) :
    Except DeviceRateDiagnostic Demand :=
  if interval.optional || !interval.carriesAcrossSupercycle then .ok demand
  else do
    let demand := demand.raise (sweep.phaseIndex interval) (sweep.backendIndex interval)
    reject (inputs.exceeds sweep demand interval)
      (deviceFailureAt .invalidConfig "device-rate cyclic carry exceeds an in-flight capacity"
        interval.phase interval.referenceIndex)
    return demand

/-- The counters, the peaks and `demand_at_release`. -/
structure SweepState where
  demand : Demand
  phasePeak : ℕ → UInt32
  backendPeak : ℕ → UInt32
  globalPeak : UInt32
  demandAtRelease : ℕ → UInt32 := fun _ => 0

/-- The counters with which the sweep begins are its first peaks. -/
def SweepState.begin (demand : Demand) : SweepState :=
  { demand := demand
    phasePeak := demand.phase
    backendPeak := demand.backend
    globalPeak := demand.global }

/-- One event. The two inner loops of the source take the events one by one, whatever
their order. -/
def sweepStep (state : SweepState) (event : SweepEvent ℕ) :
    Except DeviceRateDiagnostic SweepState :=
  let interval := sweep.interval event.item
  let phaseIndex := sweep.phaseIndex interval
  let backendIndex := sweep.backendIndex interval
  if event.release then do
    let demand := state.demand.raise phaseIndex backendIndex
    reject (inputs.exceeds sweep demand interval)
      (deviceFailureAt .invalidConfig "device-rate release exceeds an in-flight capacity"
        interval.phase interval.referenceIndex)
    return {
      demand := demand
      phasePeak := update state.phasePeak phaseIndex
        (max (state.phasePeak phaseIndex) (demand.phase phaseIndex))
      backendPeak := update state.backendPeak backendIndex
        (max (state.backendPeak backendIndex) (demand.backend backendIndex))
      globalPeak := max state.globalPeak demand.global
      demandAtRelease :=
        update state.demandAtRelease event.item (demand.phase phaseIndex) }
  else .ok { state with demand := state.demand.lower phaseIndex backendIndex }

/-- The counters of the phases and backends and the global one are back at their start. -/
def balanced (start final : Demand) : Bool :=
  final.global = start.global &&
    ((List.range sweep.tables.phases.length).all fun i => final.phase i = start.phase i) &&
    (List.range inputs.backends.length).all fun i => final.backend i = start.backend i

/-! ## Completions -/

/-- Completions are ordered by time, backend and reference record. -/
def completionKey (completion : ℕ × ℕ) : ℕ ×ₗ ℕ ×ₗ ℕ :=
  toLex (completion.1, toLex ((sweep.interval completion.2).backend.value.toNat,
    (sweep.interval completion.2).referenceIndex))

def sortCompletions (completions : List (ℕ × ℕ)) : List (ℕ × ℕ) :=
  completions.insertionSort fun left right =>
    completionKey sweep left ≤ completionKey sweep right

/-- Two completions of one backend at one time. -/
def sameCompletion (left right : ℕ × ℕ) : Bool :=
  left.1 = right.1 && (sweep.interval left.2).backend = (sweep.interval right.2).backend

/-- `completion_batch_capacity` of the admission record of a backend. -/
def completionCapacity (backendIndex : ℕ) : UInt32 :=
  min inputs.runtimeCompletionBatchCapacity
    (inputs.backends.getD backendIndex {}).capabilities.completionBatchCapacity

/-- The loop over the groups of equal completions; each turn takes at least one. -/
def checkCompletions (sweep : SweepInputs) : ℕ → (ℕ → UInt32) → List (ℕ × ℕ) →
    Except DeviceRateDiagnostic (ℕ → UInt32)
  | _, peaks, [] => .ok peaks
  | 0, peaks, _ => .ok peaks
  | fuel + 1, peaks, first :: rest => do
    let interval := sweep.interval first.2
    let backendIndex := sweep.backendIndex interval
    let count := UInt32.ofNat (1 + (rest.takeWhile (sameCompletion sweep first)).length)
    reject (count > inputs.completionCapacity backendIndex)
      (deviceFailureAt .invalidConfig
        "device-rate poll boundary exceeds completion-batch capacity" interval.phase
        interval.referenceIndex)
    checkCompletions sweep fuel
      (update peaks backendIndex (max (peaks backendIndex) count))
      (rest.dropWhile (sameCompletion sweep first))

/-! ## The compiler -/

/-- `admission_backends` with the peaks, for the backends in use. -/
def admissionBackends (tables : PhaseTables) (peaks completions : ℕ → UInt32) :
    List DeviceRateAdmissionBackend :=
  (inputs.backends.zipIdx.filter fun entry => tables.backendUsed entry.2).map fun entry =>
    { backend := entry.1.backend
      maximumInFlight := entry.1.capabilities.maxInFlightBatches
      completionBatchCapacity := inputs.completionCapacity entry.2
      peakInFlight := peaks entry.2
      peakCompletions := completions entry.2 }

/-- `admission_phases` with the peaks. -/
def admissionPhases (tables : PhaseTables) (peaks : ℕ → UInt32) : List DeviceRateAdmissionPhase :=
  tables.phases.zipIdx.map fun entry =>
    { phase := entry.1.phase
      backend := entry.1.backend
      completionBudgetNs := entry.1.completionBudgetNs
      maximumInFlight := entry.1.maximumInFlight
      peakInFlight := peaks entry.2 }

/-- Everything before the intervals. -/
def compileTables : Except DeviceRateDiagnostic (Inventories × PhaseTables) := do
  reject (inputs.ratePlan.supercycleNs = 0 ∨ inputs.runtimeOutstandingCapacity = 0 ∨
      inputs.runtimeCompletionBatchCapacity = 0 ∨ inputs.phases.length ≠ inputs.bindings.length)
    (deviceFailure .invalidConfig
      "device-rate admission requires a finite plan and positive Runtime capacities")
  let inventories ← inputs.inventories
  let tables ← inputs.bindingOrder.foldlM (inputs.compileBinding inventories) {}
  inputs.checkTimelines inventories tables
  return (inventories, tables)

/-- The intervals, their events and completions. -/
def collectIntervals (inventories : Inventories) (tables : PhaseTables) :
    Except DeviceRateDiagnostic IntervalState :=
  inputs.ratePlan.releases.zipIdx.foldlM (inputs.collectInterval inventories tables) {}

/-- The outcome of the admission. -/
structure Admission where
  start : Demand
  final : SweepState
  completionPeak : ℕ → UInt32

/-- The sweep over one supercycle. -/
def admitIntervals (collected : IntervalState) :
    Except DeviceRateDiagnostic Admission := do
  let start ← collected.intervals.foldlM (inputs.countCarry sweep) {}
  let final ← (sortEvents collected.events).foldlM (inputs.sweepStep sweep) (.begin start)
  reject (inputs.balanced sweep start final.demand = false)
    (deviceFailure .invalidConfig "device-rate admission is not cyclically balanced")
  let completions := sortCompletions sweep collected.completions
  let completionPeak ← inputs.checkCompletions sweep completions.length (fun _ => 0) completions
  return ⟨start, final, completionPeak⟩

/-- The body of `compile_device_rate_plan` for at least one binding. -/
def compilePlan : Except DeviceRateDiagnostic CompiledDeviceRatePlan := do
  let (inventories, tables) ← inputs.compileTables
  let collected ← inputs.collectIntervals inventories tables
  let sweep : SweepInputs := ⟨inventories, tables, collected.intervals⟩
  let admission ← inputs.admitIntervals sweep collected
  return {
    phases := tables.phases
    commands := tables.commands
    payloadReferences := tables.payloadReferences
    timelineReferences := tables.timelineReferences
    report := {
      supercycleNs := inputs.ratePlan.supercycleNs
      runtimeOutstandingCapacity := inputs.runtimeOutstandingCapacity
      runtimeCompletionBatchCapacity := inputs.runtimeCompletionBatchCapacity
      peakGlobalInFlight := admission.final.globalPeak
      backendCount := (inputs.admissionBackends tables admission.final.backendPeak
        admission.completionPeak).length
      phaseCount := tables.phases.length
      intervalCount := collected.intervals.length }
    admissionBackends := inputs.admissionBackends tables admission.final.backendPeak
      admission.completionPeak
    admissionPhases := admissionPhases tables admission.final.phasePeak
    admissionIntervals := collected.intervals.zipIdx.map fun entry =>
      { entry.1 with demandAtRelease := admission.final.demandAtRelease entry.2 } }

end DeviceRateInputs

structure DeviceRateResult where
  status : Status
  output : CompiledDeviceRatePlan
  diagnostic : DeviceRateDiagnostic
  deriving DecidableEq, Repr

/-- `compile_device_rate_plan`: `output` is replaced only on complete success. -/
def compileDeviceRatePlan (inputs : DeviceRateInputs) (output : CompiledDeviceRatePlan) :
    DeviceRateResult :=
  if inputs.bindings.isEmpty then ⟨.ok, {}, {}⟩
  else
    match inputs.compilePlan with
    | .ok candidate => ⟨.ok, candidate, {}⟩
    | .error diagnostic => ⟨diagnostic.status, output, diagnostic⟩

end RtRuntime
