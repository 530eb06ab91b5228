import RtRuntime.ActiveState

/-!
# Execution of one release

`execute_active_group` runs the reference records of one domain release in order. A record
first waits for the device records it depends on, a device record leaves a ticket for its
batch, and all tickets of the group are waited for at the end. Every early return of the
source is an `.error` with the status and the state it leaves behind.
-/

namespace RtRuntime

variable {ω ε : Type} [DecidableEq ε]

/-! ## Emitting actions -/

/-- An emitted action is compared with the expected one until the first difference. -/
def ReplayState.observe (replay : ReplayState ε) (record : MixedRateAction ε) : ReplayState ε :=
  if replay.mismatch then replay
  else if replay.actions[replay.expectedAction]? = some record then
    { replay with
      expectedAction := replay.expectedAction + 1
      actionsCompared := replay.actionsCompared + 1 }
  else { replay with mismatch := true }

namespace StepState

variable (s : StepState ω ε)

/-- `emit_mixed_rate_action`, for actions emitted one after the other. The sequence number
that the ring assigns is the position in the transcript on both sides of the comparison and
is left out. -/
def emitMixed (records : List (MixedRateAction ε)) : StepState ω ε :=
  { s with
    mixedLog := s.mixedLog ++ records
    replay := s.replay.map fun replay => records.foldl ReplayState.observe replay }

/-- The state after a reply of the surroundings. -/
def receive {α : Type} (s : StepState ω ε) (reply : Reply ω ε α) : StepState ω ε :=
  { s with world := reply.world }.emitMixed (reply.emitted.map .external)

/-- `record_active_failure`: only the first failure of a step is kept. -/
def recordActiveFailure (release : ReferenceRelease) (sequence : ℕ) :
    StepState ω ε :=
  { s with summary := { s.summary with
      firstFailure := s.summary.firstFailure.or
        (some ⟨release.domain, sequence, release.substepOrdinal⟩) } }

/-- `set_active_failure`: the runtime does not step again. -/
def setActiveFailure (release : ReferenceRelease) (sequence : ℕ) :
    StepState ω ε :=
  { s with fault := some ⟨release.domain, sequence, release.substepOrdinal⟩
    }.recordActiveFailure release sequence

/-- The mask of the shedding state, zero without one. -/
def shedMask (s : StepState ω ε) : UInt64 := (s.shedding.getD {}).shedMask

/-- A record fails: its phase is remembered. -/
def failRecord (release : ReferenceRelease) (sequence : ℕ) : StepState ω ε :=
  { s with failedPhase := some release.phase.index }.recordActiveFailure release sequence

end StepState

/-! ## Contexts -/

/-- What stays fixed during a step. -/
structure StepContext (ω ε : Type) where
  plan : ActivePlan
  machine : ActiveMachine ω ε
  readings : ℕ → ℕ
  frameIndex : ℕ
  epochNs : ℕ
  endNs : ℕ
  dueReferenceRecords : ℕ

/-- A release that is due, with its times and its group. -/
structure DueRelease where
  index : ℕ
  sequence : ℕ
  logicalReleaseNs : ℕ
  nominalReleaseNs : ℕ
  absoluteDeadlineNs : ℕ
  group : RateReleaseGroup
  deriving DecidableEq, Repr

/-- `device_payload_slot`. -/
def ActivePlan.devicePayloadSlot (plan : ActivePlan) (reference sequence : ℕ) : Option ℕ := do
  let release := plan.release reference
  guard (release.phaseKind = .device)
  let phase ← (plan.dispatch.devicePhaseByReference.getD reference none)
  let admitted ← plan.devicePhases[phase]?
  guard (admitted.maximumInFlight ≠ 0)
  let ordinal ← checkedMultiply sequence release.substepCount.toNat
  let ordinal ← checkedAdd ordinal release.substepOrdinal.toNat
  return ordinal % admitted.maximumInFlight.toNat

namespace StepContext

variable (ctx : StepContext ω ε)

/-! ## Waiting for a batch -/

/-- The expected record describes the completion of this ticket. -/
def describes (record : DeviceTerminalRecord ε) (ticket : DeviceRateTicket)
    (completion : DeviceRateCompletion) : Bool :=
  record.domainIndex = ticket.identity.domain.index &&
    record.phaseIndex = ticket.identity.phase.index &&
    record.releaseSequence = ticket.identity.domainReleaseSequence &&
    record.substepOrdinal = ticket.identity.substepOrdinal &&
    record.terminalStatus = completion.status &&
    record.timestampDomainIdentity = completion.timestampDomainIdentity

variable (s : StepState ω ε)

/-- `normalize_replay_device_completion`: in replay the timestamp is the recorded one. -/
def normalizeCompletion (ticket : DeviceRateTicket)
    (completion : DeviceRateCompletion) : Option DeviceRateCompletion × StepState ω ε :=
  match s.replay with
  | none => (some completion, s)
  | some replay =>
    match replay.actions[replay.expectedAction]? with
    | some (.deviceTerminal record) =>
      if describes record ticket completion then
        (some { completion with timestamp := record.timestamp }, s)
      else (none, { s with replay := some { replay with mismatch := true } })
    | _ => (none, { s with replay := some { replay with mismatch := true } })

/-- The outputs of a successful batch are captured; captured channels are no longer held. -/
def captureOutputs (ticket : DeviceRateTicket)
    (completion : DeviceRateCompletion) (status : Status) : Status × StepState ω ε :=
  if status = .ok then
    let captured := ctx.machine.captureDeviceOutputs s.world ticket completion
    (captured.1.1, { s with
      world := captured.2
      held := fun channel => s.held channel && !captured.1.2.contains channel })
  else (status, s)

/-- The slot is released when the wait has made the runtime its owner. -/
def releaseOwned (reference : ℕ) (ticket : DeviceRateTicket)
    (owned : Bool) (status : Status) : Status × StepState ω ε :=
  if owned then
    let released := ctx.machine.releaseRateBatch s.world ticket
    (if status = .ok then released.1 else status, { s with
      world := released.2
      trace := s.trace ++ [.released reference ticket] })
  else (status, s)

def terminalRecord (ticket : DeviceRateTicket)
    (completion : DeviceRateCompletion) (status : Status) : DeviceTerminalRecord ε where
  frameIndex := ctx.frameIndex
  logicalReleaseNs := ticket.identity.logicalReleaseNs
  nominalReleaseNs := ticket.identity.nominalReleaseNs
  releaseSequence := ticket.identity.domainReleaseSequence
  domainIndex := ticket.identity.domain.index
  phaseIndex := ticket.identity.phase.index
  substepOrdinal := ticket.identity.substepOrdinal
  terminalStatus := status
  timestampDomainIdentity := completion.timestampDomainIdentity
  timestamp := completion.timestamp
  shedMask := s.shedMask
  degradation := s.degradationLevel
  details := ctx.machine.describeBatch s.world ticket

/-- The completion is recorded, with the sampled publications of a successful one. -/
def reportCompletion (ticket : DeviceRateTicket)
    (completion : DeviceRateCompletion) (status : Status) : StepState ω ε :=
  s.emitMixed (.deviceTerminal (ctx.terminalRecord s ticket completion status) ::
    if status = .ok then (ctx.machine.publishBatch s.world ticket).map .external else [])

/-- A wait that has a ticket: the status and the state, with the ticket cleared. -/
def finishBatch (reference : ℕ) (ticket : DeviceRateTicket) :
    Status × StepState ω ε :=
  let batch := ctx.machine.waitRateBatch s.world ticket
  let waited := { s with
    world := batch.2
    trace := s.trace ++ [.waited reference ticket] }
  let normalized := normalizeCompletion waited ticket batch.1.completion
  let completion := normalized.1.getD batch.1.completion
  let captured := ctx.captureOutputs normalized.2 ticket completion
    (if normalized.1.isSome then completion.status else .incompatibleArtifact)
  let released :=
    ctx.releaseOwned captured.2 reference ticket completion.terminalSlotOwned captured.1
  let reported := ctx.reportCompletion released.2 ticket completion released.1
  (released.1, { reported with tickets := Function.update reported.tickets reference none })

/-- `wait_for_reference`. -/
def waitForReference (sequence : ℕ) (s : StepState ω ε) (reference : ℕ) :
    Progress ω ε (StepState ω ε) :=
  match s.tickets reference with
  | none => .ok s
  | some ticket =>
    let finished := ctx.finishBatch s reference ticket
    if finished.1 = .ok then .ok finished.2
    else .error (finished.1, finished.2.failRecord (ctx.plan.release reference) sequence)

/-! ## Running a record -/

variable (due : DueRelease)

def supercycleCycle : ℕ :=
  due.sequence / (ctx.plan.domain due.index).releasesPerSupercycle.toNat

variable (s : StepState ω ε)

/-- What the record's callback sees. -/
def releaseContext (reference payloadSlot : ℕ) : ReleaseContext where
  reference := reference
  release := ctx.plan.release reference
  supercycleCycle := ctx.supercycleCycle due
  domainReleaseSequence := due.sequence
  logicalReleaseNs := due.logicalReleaseNs
  nominalReleaseNs := due.nominalReleaseNs
  absoluteDeadlineNs := due.absoluteDeadlineNs
  degradationLevel := s.degradationLevel
  shedMask := s.shedMask
  held := s.held
  payloadSlot := payloadSlot

/-- The identity under which the record's batch is submitted. -/
def batchIdentity (reference : ℕ) : DeviceRateReleaseIdentity where
  referenceIndex := reference
  domain := (ctx.plan.release reference).domain
  phase := (ctx.plan.release reference).phase
  supercycleCycle := ctx.supercycleCycle due
  domainReleaseSequence := due.sequence
  substepOrdinal := (ctx.plan.release reference).substepOrdinal
  logicalReleaseNs := due.logicalReleaseNs
  nominalReleaseNs := due.nominalReleaseNs
  absoluteDeadlineNs := due.absoluteDeadlineNs

/-- No channel of the record may have used up its generations; the live controls of the
release are closed. -/
def beginRecord (reference : ℕ) : Progress ω ε (StepState ω ε) :=
  let release := ctx.plan.release reference
  if (ctx.plan.producedChannels release.phase.index).any
      (ctx.machine.generationsExhausted s.world) then
    .error (.capacityExceeded, s.setActiveFailure release due.sequence)
  else .ok { s with
    logicalReleaseNs := due.logicalReleaseNs
    world := ctx.machine.closeRateRelease s.world reference due.sequence }

/-- A device record gets a payload slot and its inputs; a CPU record needs neither. -/
def prepareRecord (reference : ℕ) : Progress ω ε (StepState ω ε × ℕ) :=
  let release := ctx.plan.release reference
  if release.phaseKind = .device then
    match ctx.plan.devicePayloadSlot reference due.sequence with
    | none => .error (.capacityExceeded, s.failRecord release due.sequence)
    | some slot =>
      let reply := ctx.machine.prepareDeviceInputs s.world (ctx.releaseContext due s reference slot)
      if reply.value = .ok then .ok (s.receive reply, slot)
      else .error (reply.value, (s.receive reply).failRecord release due.sequence)
  else .ok (s, 0)

/-- The ticket of an accepted submission of a device record. -/
def acceptedTicket (reference : ℕ) (outcome : RunOutcome) : Option DeviceRateTicket :=
  if (ctx.plan.release reference).phaseKind = .device then
    outcome.submission.map fun submission =>
      ⟨submission.1, submission.2, ctx.batchIdentity due reference⟩
  else none

/-- The state after `run_selected` has returned. -/
def returnFrom (reference : ℕ) (reply : Reply ω ε RunOutcome) :
    StepState ω ε :=
  let s := s.receive reply
  { s with
    trace := s.trace ++ .ran reference due.sequence ::
      ((ctx.acceptedTicket due reference reply.value).map (.accepted reference)).toList
    summary := { s.summary with
      executedReferenceRecords := s.summary.executedReferenceRecords + 1 } }

/-- The record's callback runs; a device record must leave a ticket. -/
def callRecord (reference payloadSlot : ℕ) :
    Progress ω ε (StepState ω ε × RunOutcome) :=
  let release := ctx.plan.release reference
  let reply := ctx.machine.runSelected s.world (ctx.releaseContext due s reference payloadSlot)
  let s := ctx.returnFrom due s reference reply
  if reply.value.status ≠ .ok then
    .error (reply.value.status, s.failRecord release due.sequence)
  else if release.phaseKind = .device then
    match ctx.acceptedTicket due reference reply.value with
    | none => .error (.internalError, s.failRecord release due.sequence)
    | some ticket =>
      .ok ({ s with tickets := Function.update s.tickets reference (some ticket) }, reply.value)
  else .ok (s, reply.value)

/-- A host channel must have been published, unless a safe frame can take its place. -/
def requirePublication (reference : ℕ) (outcome : RunOutcome) (s : StepState ω ε)
    (channel : ℕ) : Progress ω ε (StepState ω ε) :=
  if outcome.published channel then .ok s
  else
    let reply := ctx.machine.substituteSafe s.world channel
    if reply.value then .ok (s.receive reply)
    else .error (.callbackFailed,
      (s.receive reply).failRecord (ctx.plan.release reference) due.sequence)

/-- A host channel is committed; its sample is then no longer a held one. -/
def commitChannel (reference : ℕ) (s : StepState ω ε) (channel : ℕ) :
    Progress ω ε (StepState ω ε) :=
  let reply := ctx.machine.publishChannel s.world (ctx.releaseContext due s reference 0) channel
  let s := s.receive reply
  if reply.value then .ok { s with held := Function.update s.held channel false }
  else .error (.internalError,
    { s with failedPhase := some (ctx.plan.release reference).phase.index
      }.setActiveFailure (ctx.plan.release reference) due.sequence)

/-- One turn of the loop over the records of a group. -/
def runRecord (reference : ℕ) : Progress ω ε (StepState ω ε) := do
  let channels := ctx.plan.hostChannels (ctx.plan.release reference).phase.index
  let s ← (ctx.plan.dependenciesOf reference).foldlM (ctx.waitForReference due.sequence) s
  let s ← ctx.beginRecord due s reference
  let (s, payloadSlot) ← ctx.prepareRecord due s reference
  let (s, outcome) ← ctx.callRecord due s reference payloadSlot
  let s ← channels.foldlM (ctx.requirePublication due reference outcome) s
  channels.foldlM (ctx.commitChannel due reference) s

/-- The records of a group, by reference index. -/
def groupReferences (group : RateReleaseGroup) : List ℕ :=
  List.range' group.firstReferenceIndex group.referenceCount

/-- `execute_active_group`. -/
def executeActiveGroup : Progress ω ε (StepState ω ε) := do
  let s ← (groupReferences due.group).foldlM (ctx.runRecord due) s
  (groupReferences due.group).foldlM (ctx.waitForReference due.sequence) s

end StepContext

end RtRuntime
