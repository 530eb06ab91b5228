import RtRuntime.ActiveGroup

/-!
# The dispatch loop of a step

`run_active_step` settles every domain release that falls due between the logical cursor
and the end of the step. Each turn of its loop finds a barrier up to which releases can be
omitted as whole ranges, omits these ranges, and then settles one by one the releases of
the earliest instant that is left.
-/

namespace RtRuntime

variable {ω ε : Type} [DecidableEq ε]

/-! ## The shedding policy -/

/-- The domain is optional and its bit is set. -/
def StepState.alreadyShed (s : StepState ω ε) (plan : ActivePlan) (index : ℕ) : Bool :=
  (plan.domain index).optional &&
    s.shedding.any fun shedding => shedding.shedMask &&& ActivePlan.shedBit index ≠ 0

/-- `current_policy_state`. -/
def StepState.currentPolicyState (s : StepState ω ε) (reason : RateActionReason) :
    PolicyTransition where
  reason := reason
  before := s.shedMask
  after := s.shedMask

/-- A late mandatory release: at the threshold the next optional domain is shed. -/
def observeLate (plan : ActivePlan) (shedding : ActiveSheddingState) :
    ActiveSheddingState × Option ℕ :=
  let threshold := plan.dispatch.policy.consecutiveLateThreshold
  let shedding := { shedding with
    consecutiveOnTime := 0
    consecutiveLate :=
      if shedding.consecutiveLate < threshold then shedding.consecutiveLate + 1
      else shedding.consecutiveLate }
  if shedding.consecutiveLate = threshold then
    match plan.dispatch.optionalShedOrder.find? fun index =>
        shedding.shedMask &&& ActivePlan.shedBit index = 0 with
    | none => (shedding, none)
    | some index =>
      ({ shedding with
        shedMask := shedding.shedMask ||| ActivePlan.shedBit index
        consecutiveLate := 0 }, some index)
  else (shedding, none)

/-- A mandatory release on time: at the threshold the domain shed last recovers. -/
def observeOnTime (plan : ActivePlan) (shedding : ActiveSheddingState) :
    ActiveSheddingState × Option ℕ :=
  let threshold := plan.dispatch.policy.consecutiveOnTimeThreshold
  let shedding := { shedding with
    consecutiveLate := 0
    consecutiveOnTime :=
      if shedding.consecutiveOnTime < threshold then shedding.consecutiveOnTime + 1
      else shedding.consecutiveOnTime }
  if shedding.consecutiveOnTime = threshold then
    match plan.dispatch.optionalShedOrder.reverse.find? fun index =>
        shedding.shedMask &&& ActivePlan.shedBit index ≠ 0 with
    | none => (shedding, none)
    | some index =>
      ({ shedding with
        shedMask := shedding.shedMask &&& ~~~ ActivePlan.shedBit index
        consecutiveOnTime := 0 }, some index)
  else (shedding, none)

/-- `std::popcount`. -/
def popcount (mask : UInt64) : ℕ :=
  (List.range 64).countP fun index => mask &&& ActivePlan.shedBit index ≠ 0

/-- The transition that an observation reports. -/
def observedTransition (late : Bool) (before after : UInt64) (changed : Option ℕ) :
    PolicyTransition :=
  match changed with
  | none =>
    { reason := if late then .deadlineLate else .onTime
      before := before
      after := after }
  | some index =>
    { id := if late then .shed else .recover
      reason := if late then .lateThreshold else .onTimeThreshold
      before := before
      after := after
      domainIndex := some index }

/-- The shedding state after a mandatory release, with the domain whose bit changed. -/
def observeRelease (plan : ActivePlan) (late : Bool) (shedding : ActiveSheddingState) :
    ActiveSheddingState × Option ℕ :=
  if late then observeLate plan shedding else observeOnTime plan shedding

/-- The counters of a policy observation. -/
def RateSummary.countObserved (summary : RateSummary) (late : Bool)
    (observed : ActiveSheddingState × Option ℕ) : RateSummary :=
  { summary with
    shedTransitions := summary.shedTransitions + if late && observed.2.isSome then 1 else 0
    recoveryTransitions :=
      summary.recoveryTransitions + if !late && observed.2.isSome then 1 else 0
    currentlyShedDomains := popcount observed.1.shedMask }

/-- What `observe_mandatory_release` sees: nothing for an optional domain or without a
shedding state. -/
def StepState.observation (s : StepState ω ε) (plan : ActivePlan) (index : ℕ) (late : Bool) :
    Option (ActiveSheddingState × Option ℕ) :=
  if (plan.domain index).optional then none else s.shedding.map (observeRelease plan late)

/-- The transition that goes with the action: the current policy state for an optional
domain, the result of `observe_mandatory_release` otherwise. -/
def StepState.transitionFor (s : StepState ω ε) (plan : ActivePlan) (index : ℕ) (late : Bool) :
    PolicyTransition :=
  match s.observation plan index late with
  | none => s.currentPolicyState (if late then .deadlineLate else .onTime)
  | some observed => observedTransition late s.shedMask observed.1.shedMask observed.2

/-- The policy state after a release: only mandatory releases are observed. -/
def StepState.observe (s : StepState ω ε) (plan : ActivePlan) (index : ℕ) (late : Bool) :
    StepState ω ε :=
  { s with
    shedding := ((s.observation plan index late).map Prod.fst).or s.shedding
    summary := ((s.observation plan index late).map (s.summary.countObserved late)).getD
      s.summary }

/-- The release counts as settled. -/
def StepState.advance (s : StepState ω ε) (due : DueRelease) : StepState ω ε :=
  { s with
    settledRecords := s.settledRecords + due.group.referenceCount
    next := Function.update s.next due.index (due.sequence + 1) }

/-! ## Decisions -/

/-- The answer of the transcript: the first decision about this release among the next
actions says whether it was late. -/
def ReplayState.decisionNow (replay : ReplayState ε) (maximumActions index sequence deadline : ℕ) :
    ℕ :=
  let window := (replay.actions.drop replay.expectedAction).take maximumActions
  let found := window.findSome? fun action =>
    match action with
    | .decision record =>
      if record.domainIndex = index ∧ record.releaseSequence = sequence then some record.late
      else none
    | _ => none
  match found with
  | some true => if deadline = u64Max then deadline else deadline + 1
  | _ => deadline

/-- A decision has been asked for. -/
def StepState.tick (s : StepState ω ε) : StepState ω ε := { s with reads := s.reads + 1 }

namespace StepContext

variable (ctx : StepContext ω ε) (s : StepState ω ε)

/-- `mixed_rate_decision_now`: the clock, or in replay the transcript. -/
def decisionNow (index sequence deadline : ℕ) : ℕ :=
  match s.replay with
  | none => ctx.readings s.reads
  | some replay => replay.decisionNow ctx.plan.maximumActionsPerStep index sequence deadline

/-- The release is late when it is decided on. -/
def decidesLate (index sequence deadline : ℕ) : Bool :=
  ctx.decisionNow s index sequence deadline > deadline

/-- `emit_rate_action`: the rate telemetry and the mixed-rate transcript. -/
def emitRateAction (index firstSequence logical nominal releases records : ℕ)
    (action : RateActionId) (reason : RateActionReason) (late : Bool)
    (transition : PolicyTransition) (status : Status) : StepState ω ε :=
  let record : RateActionRecord :=
    { frameIndex := ctx.frameIndex
      firstSequence := firstSequence
      logicalReleaseNs := logical
      nominalReleaseNs := nominal
      releaseCount := releases
      referenceRecordCount := records
      domainIndex := index
      action := action
      transition := transition
      reason := reason
      optional := (ctx.plan.domain index).optional
      late := late
      status := status
      degradationLevel := s.degradationLevel }
  { s with rateLog := s.rateLog ++ [record] }.emitMixed [.decision record.decision]

/-- `ceil_sequence`; unlike `ceil_div` it does not check. -/
def ceilSequence (value period : ℕ) : ℕ :=
  value / period + if value % period ≠ 0 then 1 else 0

/-- `end_sequence`. -/
def endSequence (index : ℕ) : ℕ := ceilSequence ctx.endNs (ctx.plan.period index)

/-- The release after the last settled one still falls into this step. -/
def isDue (index : ℕ) : Bool := s.next index < ctx.endSequence index

/-- The state stops with a status where a checked operation has no result. -/
def orStop {α : Type} (s : StepState ω ε) (x : Option α) (status : Status) : Progress ω ε α :=
  orReject x (status, s)

/-- The nominal time of a release and its absolute deadline. -/
def nominalTimes (index logical : ℕ) : Option (ℕ × ℕ) := do
  let nominal ← checkedAdd ctx.epochNs logical
  let deadline ← checkedAdd nominal (ctx.plan.domain index).relativeDeadlineNs.toNat
  return (nominal, deadline)

def omitsLate (index : ℕ) : Bool :=
  (ctx.plan.domain index).lateAction = .skip || (ctx.plan.domain index).lateAction = .hold

/-- `aggregate_mandatory_omissions`: no optional domain is left that could be shed. -/
def aggregateMandatory : Bool :=
  ctx.plan.dispatch.optionalShedOrder.isEmpty ||
    s.shedding.any fun shedding =>
      shedding.shedMask &&& ctx.plan.optionalMask = ctx.plan.optionalMask

/-! ## The barrier -/

/-- The first release of the domain that is not late at `now`. -/
def firstNonlate (index now : ℕ) : ℕ :=
  max (s.next index) (ceilSequence
    (now - ctx.epochNs - (ctx.plan.domain index).relativeDeadlineNs.toNat) (ctx.plan.period index))

/-- The barrier of a domain whose next releases can be omitted: where it stops being late. -/
def lateBarrier (index now deadline barrier : ℕ) : Progress ω ε ℕ :=
  if now > deadline ∧ ctx.firstNonlate s index now < ctx.endSequence index then do
    let first ← orStop s (checkedMultiply (ctx.firstNonlate s index now) (ctx.plan.period index))
      .capacityExceeded
    return min barrier first
  else .ok barrier

/-- The next releases of the domain can be omitted together: it is shed, or it is late and
omits late releases, and no shedding decision can follow from that. -/
def omission (index : ℕ) (late : Bool) : Bool :=
  s.alreadyShed ctx.plan index ||
    ((late && ctx.omitsLate index) &&
      ((ctx.plan.domain index).optional || ctx.aggregateMandatory s))

/-- One turn of the loop that finds the barrier. -/
def probeDomain (acc : ℕ × StepState ω ε) (index : ℕ) : Progress ω ε (ℕ × StepState ω ε) :=
  let (barrier, s) := acc
  if ctx.isDue s index then do
    let logical ← orStop s (checkedMultiply (s.next index) (ctx.plan.period index))
      .capacityExceeded
    let (_, deadline) ← orStop s (ctx.nominalTimes index logical) .capacityExceeded
    let now := ctx.decisionNow s index (s.next index) deadline
    let barrier ←
      if ctx.omission s index (now > deadline) then
        ctx.lateBarrier s.tick index now deadline barrier
      else .ok (min barrier logical)
    return (barrier, s.tick)
  else .ok acc

/-! ## Ranges -/

/-- The channels of a domain hold their last sample. -/
def heldBy (held : ℕ → Bool) (index : ℕ) : ℕ → Bool :=
  fun channel => held channel || ctx.plan.producedBy index channel

/-- The action by which releases of a domain are omitted. -/
def omissionAction (index : ℕ) : RateActionId :=
  if s.alreadyShed ctx.plan index then .optionalShed
  else if (ctx.plan.domain index).lateAction = .skip then .skip else .hold

/-- Whether the first release of a range is late; an overflowing deadline is not. -/
def rangeLate (index nominal : ℕ) : Bool :=
  match checkedAdd nominal (ctx.plan.domain index).relativeDeadlineNs.toNat with
  | none => false
  | some deadline => ctx.decidesLate s index (s.next index) deadline

/-- The clock is read unless the deadline overflows. -/
def rangeReads (index nominal : ℕ) : ℕ :=
  s.reads +
    if (checkedAdd nominal (ctx.plan.domain index).relativeDeadlineNs.toNat).isSome then 1 else 0

/-- The counters of an omitted range. -/
def RateSummary.countOmitted (summary : RateSummary) (action : RateActionId) (late : Bool)
    (releases : ℕ) : RateSummary :=
  let summary :=
    if late then { summary with lateDomainReleases := summary.lateDomainReleases + releases }
    else { summary with onTimeDomainReleases := summary.onTimeDomainReleases + releases }
  match action with
  | .optionalShed =>
    { summary with shedDomainReleases := summary.shedDomainReleases + releases }
  | .skip => { summary with skippedDomainReleases := summary.skippedDomainReleases + releases }
  | _ => { summary with heldDomainReleases := summary.heldDomainReleases + releases }

/-- An omitted range of a mandatory domain leaves the late streak at its threshold. -/
def streakAfterRange (shedding : Option ActiveSheddingState) (index : ℕ) :
    Option ActiveSheddingState :=
  if (ctx.plan.domain index).optional then shedding
  else shedding.map fun shedding => { shedding with
    consecutiveOnTime := 0
    consecutiveLate := ctx.plan.dispatch.policy.consecutiveLateThreshold }

/-- The reason an omission reports. -/
def omissionReason (action : RateActionId) : RateActionReason :=
  if action = .optionalShed then .alreadyShed else .deadlineLate

/-- The releases of a domain up to `target` are omitted in one action. -/
def omitReleases (index target records logical nominal : ℕ) : StepState ω ε :=
  let action := ctx.omissionAction s index
  let late := ctx.rangeLate s index nominal
  let releases := target - s.next index
  let emitted := ctx.emitRateAction s index (s.next index) logical nominal releases records
    action (omissionReason action) late (s.currentPolicyState (omissionReason action)) .ok
  { emitted with
    reads := ctx.rangeReads s index nominal
    settledRecords := s.settledRecords + records
    summary := RateSummary.countOmitted s.summary action late releases
    held := if action = .hold then ctx.heldBy s.held index else s.held
    shedding := ctx.streakAfterRange s.shedding index
    next := Function.update s.next index target }

/-- The end of the range of a domain below the barrier. -/
def rangeTarget (barrier index : ℕ) : ℕ :=
  min (ctx.endSequence index) (ceilSequence barrier (ctx.plan.period index))

/-- One turn of the loop that omits ranges. -/
def omitRange (barrier : ℕ) (s : StepState ω ε) (index : ℕ) : Progress ω ε (StepState ω ε) :=
  let target := ctx.rangeTarget barrier index
  if (s.alreadyShed ctx.plan index || ctx.omitsLate index) ∧ s.next index < target then do
    let records ← orStop s (checkedMultiply (target - s.next index) (ctx.plan.records index))
      .capacityExceeded
    let logical ← orStop s (checkedMultiply (s.next index) (ctx.plan.period index))
      .capacityExceeded
    let nominal ← orStop s (checkedAdd ctx.epochNs logical) .capacityExceeded
    return ctx.omitReleases s index target records logical nominal
  else .ok s

/-! ## Settling one release -/

/-- An action about one release. -/
def emitFor (due : DueRelease) (action : RateActionId)
    (reason : RateActionReason) (late : Bool) (transition : PolicyTransition) (status : Status) :
    StepState ω ε :=
  ctx.emitRateAction s due.index due.sequence due.logicalReleaseNs due.nominalReleaseNs 1
    due.group.referenceCount action reason late transition status

/-- The first record of a release, which carries the late action and its bounds. -/
def firstRecord (due : DueRelease) : ReferenceRelease :=
  ctx.plan.release due.group.firstReferenceIndex

/-- The release belongs to a shed domain. -/
def settleShed (due : DueRelease) (late : Bool) : StepState ω ε :=
  let counted := { s with summary := { s.summary with
    shedDomainReleases := s.summary.shedDomainReleases + 1 } }
  (ctx.emitFor counted due .optionalShed .alreadyShed late (s.currentPolicyState .onTime)
    .ok).advance due

/-- The reason an action reports: the transition's own where there is one. -/
def reasonOf (transition : PolicyTransition) (reason : RateActionReason) : RateActionReason :=
  if transition.id = .none then reason else transition.reason

/-- A late release is skipped or held. -/
def settleOmitted (due : DueRelease) (action : RateActionId) : StepState ω ε :=
  let counted := { s with
    summary := { s.summary with
      lateDomainReleases := s.summary.lateDomainReleases + 1
      skippedDomainReleases :=
        s.summary.skippedDomainReleases + if action = RateActionId.hold then 0 else 1
      heldDomainReleases :=
        s.summary.heldDomainReleases + if action = RateActionId.hold then 1 else 0 }
    held := if action = RateActionId.hold then ctx.heldBy s.held due.index else s.held }
  let transition := s.transitionFor ctx.plan due.index true
  (ctx.emitFor (counted.observe ctx.plan due.index true) due action
    (reasonOf transition .deadlineLate) true transition .ok).advance due

/-- The records of this and all later releases of the step are rejected. -/
def rejectRest (attempted : ℕ) : StepState ω ε :=
  { s with summary := { s.summary with
    rejectedReferenceRecords := s.summary.rejectedReferenceRecords +
      (ctx.dueReferenceRecords - s.settledRecords - attempted) } }

/-- A late release of a domain whose late action is to fail. -/
def failLate (due : DueRelease) : StepState ω ε :=
  let counted := { s with
    logicalReleaseNs := due.logicalReleaseNs
    summary := { s.summary with
      lateDomainReleases := s.summary.lateDomainReleases + 1
      failedDomainReleases := s.summary.failedDomainReleases + 1 } }
  ctx.emitFor ((ctx.rejectRest counted 0).setActiveFailure (ctx.firstRecord due) due.sequence) due
    .fail .deadlineLate true (s.currentPolicyState .onTime) .callbackFailed

/-- The release does not fit the bounds of the step. -/
def rejectRelease (due : DueRelease) (action : RateActionId) (late : Bool) : StepState ω ε :=
  ctx.emitFor (ctx.rejectRest s 0) due action .dispatchCapacity late
    (s.currentPolicyState .onTime) .capacityExceeded

/-- The late release is caught up. -/
def catchesUp (due : DueRelease) (late : Bool) : Bool :=
  late && (ctx.firstRecord due).lateAction = .boundedCatchUp

/-- The late release is executed degraded. -/
def degrades (due : DueRelease) (late : Bool) : Bool :=
  late && (ctx.firstRecord due).lateAction = .degrade

/-- The action of an executed release. -/
def executionAction (due : DueRelease) (late : Bool) : RateActionId :=
  if ctx.catchesUp due late then .executeCatchUp
  else if ctx.degrades due late then .executeDegraded
  else .executeOnTime

/-- The counters and the degradation level before a release is executed. -/
def beginRelease (due : DueRelease) (late : Bool) : StepState ω ε :=
  { s with
    catchUpCounts :=
      if ctx.catchesUp due late then
        Function.update s.catchUpCounts due.index (s.catchUpCounts due.index + 1)
      else s.catchUpCounts
    degradationLevel :=
      if ctx.degrades due late ∧ s.degradationLevel < ctx.plan.watchdogMaxDegradationLevel then
        s.degradationLevel + 1
      else s.degradationLevel
    summary := { s.summary with
      lateDomainReleases := s.summary.lateDomainReleases + if late then 1 else 0
      onTimeDomainReleases := s.summary.onTimeDomainReleases + if late then 0 else 1
      caughtUpDomainReleases :=
        s.summary.caughtUpDomainReleases + if ctx.catchesUp due late then 1 else 0
      degradedDomainReleases :=
        s.summary.degradedDomainReleases + if ctx.degrades due late then 1 else 0 } }

/-- `terminal_device_failure`: the failed phase is that of a device record of the group. -/
def terminalDeviceFailure (failedPhase : Option ℕ) (due : DueRelease) : Bool :=
  (groupReferences due.group).any fun reference =>
    decide (failedPhase = some (ctx.plan.release reference).phase.index) &&
      decide ((ctx.plan.release reference).phaseKind = .device)

/-- A device failure stops the runtime for good. -/
def faultAfter (due : DueRelease) : StepState ω ε :=
  if ctx.terminalDeviceFailure s.failedPhase due then
    s.setActiveFailure (ctx.firstRecord due) due.sequence
  else s

/-- A group has failed: the step consumes its whole window. -/
def failGroup (executedBefore : ℕ) (s : StepState ω ε) (due : DueRelease) (late : Bool)
    (status : Status) : StepState ω ε :=
  let counted := { s with
    logicalCursorNs := ctx.endNs
    nominalEpochNs := ctx.epochNs
    epochMapped := true
    summary := { s.summary with failedDomainReleases := s.summary.failedDomainReleases + 1 } }
  let rejected := ctx.rejectRest counted (s.summary.executedReferenceRecords - executedBefore)
  ctx.emitFor (ctx.faultAfter rejected due) due (ctx.executionAction due late) .callbackFailure
    late (s.currentPolicyState .onTime) status

/-- A group has succeeded. -/
def completeGroup (due : DueRelease) (late : Bool) : StepState ω ε :=
  let counted := { s with summary := { s.summary with
    optionalExecutedDomainReleases := s.summary.optionalExecutedDomainReleases +
      if (ctx.plan.domain due.index).optional then 1 else 0 } }
  let transition := s.transitionFor ctx.plan due.index late
  (ctx.emitFor (counted.observe ctx.plan due.index late) due (ctx.executionAction due late)
    (reasonOf transition (if late then .deadlineLate else .onTime)) late transition .ok).advance due

/-- The release is executed. -/
def executeRelease (due : DueRelease) (late : Bool) : Progress ω ε (StepState ω ε) :=
  match ctx.executeActiveGroup due (ctx.beginRelease s due late) with
  | .ok executed => .ok (ctx.completeGroup executed due late)
  | .error (status, failed) =>
    .error (status, ctx.failGroup s.summary.executedReferenceRecords failed due late status)

/-- The policies applied to one release whose lateness is known. -/
def settleDecided (due : DueRelease) (late : Bool) : Progress ω ε (StepState ω ε) :=
  let lateAction := (ctx.firstRecord due).lateAction
  if s.alreadyShed ctx.plan due.index then .ok (ctx.settleShed s due late)
  else if late ∧ lateAction = .skip then .ok (ctx.settleOmitted s due .skip)
  else if late ∧ lateAction = .hold then .ok (ctx.settleOmitted s due .hold)
  else if late ∧ lateAction = .fail then .error (.callbackFailed, ctx.failLate s due)
  else if ctx.catchesUp due late ∧
      (ctx.firstRecord due).boundedCatchUpLimit.toNat ≤ s.catchUpCounts due.index then
    .error (.capacityExceeded, ctx.rejectRelease s due .executeCatchUp late)
  else if s.summary.executedReferenceRecords + due.group.referenceCount >
      ctx.plan.dispatch.policy.maximumDispatchRecordsPerStep then
    .error (.capacityExceeded, ctx.rejectRelease s due
      (if ctx.catchesUp due late then .executeCatchUp else .executeOnTime) late)
  else ctx.executeRelease s due late

/-- The next release of a domain, with its group and its times. -/
def dueRelease (index logical : ℕ) : Progress ω ε DueRelease := do
  let group ← orStop s (ctx.plan.groupAt index (s.next index)) .internalError
  let nominal ← orStop s (checkedAdd ctx.epochNs logical) .capacityExceeded
  let deadline ← orStop s (checkedAdd nominal
    (ctx.plan.release group.firstReferenceIndex).relativeDeadlineNs.toNat) .capacityExceeded
  return ⟨index, s.next index, logical, nominal, deadline, group⟩

/-- The next release of a domain is settled. -/
def settleRelease (index logical : ℕ) : Progress ω ε (StepState ω ε) := do
  let due ← ctx.dueRelease s index logical
  ctx.settleDecided s.tick due (ctx.decidesLate s index due.sequence due.absoluteDeadlineNs)

/-- One turn of the loop that settles the releases of an instant. -/
def settleAt (instant : ℕ) (s : StepState ω ε) (index : ℕ) : Progress ω ε (StepState ω ε) :=
  if ctx.isDue s index then do
    let logical ← orStop s (checkedMultiply (s.next index) (ctx.plan.period index))
      .capacityExceeded
    if logical = instant then ctx.settleRelease s index logical else .ok s
  else .ok s

/-! ## The loop -/

/-- One turn of the loop that finds the earliest release left. -/
def earliest (instant : Option ℕ) (index : ℕ) : Progress ω ε (Option ℕ) :=
  if ctx.isDue s index then do
    let logical ← orStop s (checkedMultiply (s.next index) (ctx.plan.period index))
      .capacityExceeded
    return some (min (instant.getD ctx.endNs) logical)
  else .ok instant

def indices : List ℕ := List.range ctx.plan.domainCount

/-- The releases of an instant are settled, if there is one. -/
def settleInstant (instant : Option ℕ) : Progress ω ε (StepState ω ε × Bool) :=
  match instant with
  | none => .ok (s, false)
  | some instant => (ctx.indices.foldlM (ctx.settleAt instant) s).map fun s => (s, true)

/-- One turn of the loop; `false` when nothing was left to settle. -/
def dispatchTurn : Progress ω ε (StepState ω ε × Bool) := do
  let (barrier, s) ← ctx.indices.foldlM ctx.probeDomain (ctx.endNs, s)
  let s ← ctx.indices.foldlM (ctx.omitRange barrier) s
  let instant ← ctx.indices.foldlM (ctx.earliest s) none
  ctx.settleInstant s instant

/-- The loop, with a bound on its turns. -/
def dispatchLoop : ℕ → StepState ω ε → Progress ω ε (StepState ω ε)
  | 0, s => .error (.internalError, s)
  | fuel + 1, s =>
    match ctx.dispatchTurn s with
    | .error stop => .error stop
    | .ok (s, true) => dispatchLoop fuel s
    | .ok (s, false) => .ok s

/-! ## Rules for a turn

What the readings of the clock, the ranges and the settling of single releases keep, a turn keeps;
`Q` is shown where it stops. -/

section Rules

variable {ctx} {s} {I : StepState ω ε → Prop} {Q : Status × StepState ω ε → Prop}

theorem settleAt_ensures {instant index : ℕ}
    (h : ¬(ctx.isDue s index ∧ s.next index * ctx.plan.period index = instant) → I s)
    (stops : ∀ status, Q (status, s))
    (settles : ∀ due late, due.index = index → due.sequence = s.next index → ctx.isDue s index →
      ctx.plan.groupAt index (s.next index) = some due.group →
      Ensures (ctx.settleDecided s.tick due late) I Q) :
    Ensures (ctx.settleAt instant s index) I Q := by
  simp only [settleAt]
  split
  next hopen =>
    refine .bind (.orReject (fun _ => id) fun _ => stops _) fun logical hlogical => ?_
    split
    · have hdue : Ensures (ctx.dueRelease s index logical) (fun due => due.index = index ∧
          due.sequence = s.next index ∧
            ctx.plan.groupAt index (s.next index) = some due.group) Q := by
        refine .bind (.orReject (fun _ => id) fun _ => stops _) fun group hgroup => ?_
        refine .orReject_bind (stops _) fun nominal => ?_
        exact .orReject_bind (stops _) fun deadline => ⟨rfl, rfl, hgroup⟩
      exact hdue.bind fun due ⟨hindex, hsequence, hgroup⟩ =>
        settles due _ hindex hsequence hopen hgroup
    next helsewhere =>
      exact h fun both => helsewhere ((checkedMultiply_eq_some.mp hlogical).2.trans both.2)
  next hdone => exact h fun both => hdone both.1

variable (stops : ∀ {t} status, I t → Q (status, t)) (ticks : ∀ {t}, I t → I t.tick)
include stops ticks

omit [DecidableEq ε] in
theorem probeDomain_ensures {acc : ℕ × StepState ω ε} (h : I acc.2) (index : ℕ) :
    Ensures (ctx.probeDomain acc index) (fun acc => I acc.2) Q := by
  simp only [probeDomain]
  split
  · refine .orReject_bind (stops _ h) fun logical => .orReject_bind (stops _ h) fun times => ?_
    split
    · refine .bind (P := fun _ => True) ?_ fun _ _ => ticks h
      unfold lateBarrier
      split
      · exact .orReject_bind (stops _ (ticks h)) fun _ => trivial
      · trivial
    · exact ticks h
  · exact h

theorem dispatchTurn_ensures (h : I s)
    (ranges : ∀ barrier probed, ctx.indices.foldlM ctx.probeDomain (ctx.endNs, s) =
      .ok (barrier, probed) → I probed →
        Ensures (ctx.indices.foldlM (ctx.omitRange barrier) probed) I Q)
    (settles : ∀ t, I t → ∀ instant index, Ensures (ctx.settleAt instant t index) I Q) :
    Ensures (ctx.dispatchTurn s) (fun t => I t.1) Q := by
  have hprobes : Ensures (ctx.indices.foldlM ctx.probeDomain (ctx.endNs, s))
      (fun acc => I acc.2) Q :=
    .foldlM_state h fun acc hacc index _ => probeDomain_ensures stops ticks hacc index
  refine hprobes.returned.bind fun ⟨barrier, probed⟩ ⟨hprobe, hprobed⟩ => ?_
  refine (ranges barrier probed hprobe hprobed).bind fun s₂ h₂ => ?_
  refine .bind (P := fun _ => True) (.foldlM_state trivial fun instant _ index _ => ?_)
    fun instant _ => ?_
  · simp only [earliest]
    split
    · exact .orReject_bind (stops _ h₂) fun _ => trivial
    · trivial
  · cases instant with
    | none => exact h₂
    | some instant =>
      have hsettled : Ensures (ctx.indices.foldlM (ctx.settleAt instant) s₂) I Q :=
        .foldlM_state h₂ fun t ht index _ => settles t ht instant index
      simp only [settleInstant]
      cases hfold : ctx.indices.foldlM (ctx.settleAt instant) s₂ with
      | ok t => exact hsettled.of_ok hfold
      | error stop => exact hsettled.of_error hfold

end Rules

end StepContext

/-! ## Steps -/

/-- `HostFrameContext`, as far as a step reads it. -/
structure HostFrameContext where
  frameIndex : ℕ := 0
  delta : Int64 := 0
  nominalReleaseNs : Option UInt64 := none
  deriving DecidableEq, Repr

/-- `delta_ns`. -/
def HostFrameContext.deltaNs (frame : HostFrameContext) : ℕ := frame.delta.toInt.toNat

structure StepOutcome (ω ε : Type) where
  status : Status
  state : ActiveState ω ε
  summary : RateSummary := {}
  failedPhase : Option ℕ := none

/-- The epoch of the step: the mapped one, which the frame must continue, or the frame's. -/
def ActiveState.epochFor (state : ActiveState ω ε) (nominal : ℕ) : Except Status ℕ :=
  if state.epochMapped then
    if checkedAdd state.nominalEpochNs state.logicalCursorNs = some nominal then
      .ok state.nominalEpochNs
    else .error .invalidArgument
  else if state.logicalCursorNs ≠ 0 then .error .invalidState
  else .ok nominal

/-- The due releases of the optional domains. -/
def addOptionalDue (plan : ActivePlan) (cursorNs endNs : ℕ) (optionalDue index : ℕ) :
    Except Status ℕ :=
  if (plan.domain index).optional then do
    let counts ← (countDueDomainReleases plan.ratePlan plan.dispatch index cursorNs endNs).mapError
      fun _ => .capacityExceeded
    orReject (checkedAdd optionalDue counts.domainReleases) .capacityExceeded
  else .ok optionalDue

/-- The checks before the loop, with the context and the state it starts in. -/
def beginStep (plan : ActivePlan) (machine : ActiveMachine ω ε) (readings : ℕ → ℕ)
    (frame : HostFrameContext) (state : ActiveState ω ε) :
    Except Status (StepContext ω ε × StepState ω ε) := do
  reject state.fault.isSome .invalidState
  reject (frame.delta.toInt ≤ 0) .invalidArgument
  let nominal ← orReject frame.nominalReleaseNs .invalidArgument
  let endNs ← orReject (checkedAdd state.logicalCursorNs frame.deltaNs) .invalidArgument
  let epochNs ← state.epochFor nominal.toNat
  let _ ← orReject (checkedAdd epochNs endNs) .invalidArgument
  let counts ← countDueRateWork plan.ratePlan plan.dispatch state.logicalCursorNs endNs
  let optionalDue ← (List.range plan.domainCount).foldlM
    (addOptionalDue plan state.logicalCursorNs endNs) 0
  return (⟨plan, machine, readings, frame.frameIndex, epochNs, endNs, counts.referenceRecords⟩,
    { state with
      next := fun index => StepContext.ceilSequence state.logicalCursorNs (plan.period index)
      summary := {
        dueDomainReleases := counts.domainReleases
        dueReferenceRecords := counts.referenceRecords
        ratePolicyVersion := plan.dispatch.policy.hostPolicyVersion
        currentlyShedDomains := popcount (state.shedding.getD {}).shedMask
        optionalDueDomainReleases := optionalDue } })

/-- The window of the step is consumed: it succeeded, or it only ran out of capacity. -/
def consumesWindow (status : Status) (s : StepState ω ε) : Bool :=
  status = .ok || (status = .capacityExceeded && s.fault.isNone)

/-- The cursor after the loop. -/
def finishStep (ctx : StepContext ω ε) (status : Status) (s : StepState ω ε) :
    ActiveState ω ε :=
  let expired : ActiveState ω ε := { s.toActiveState with
    world := ctx.machine.expireRateReleasesBefore s.world
      (if consumesWindow status s then ctx.endNs else s.logicalReleaseNs) }
  if consumesWindow status s then
    { expired with
      logicalCursorNs := ctx.endNs
      nominalEpochNs := ctx.epochNs
      epochMapped := true }
  else if s.fault.isSome then
    { expired with
      logicalCursorNs := s.logicalReleaseNs
      nominalEpochNs := ctx.epochNs
      epochMapped := true }
  else expired

/-- The outcome of a step whose checks have passed, from the outcome of its loop. -/
def stepOutcome (ctx : StepContext ω ε) (result : Progress ω ε (StepState ω ε)) :
    StepOutcome ω ε :=
  match result with
  | .ok s => ⟨.ok, finishStep ctx .ok s, s.summary, s.failedPhase⟩
  | .error (status, s) => ⟨status, finishStep ctx status s, s.summary, s.failedPhase⟩

/-- `run_active_step`. -/
def runActiveStep (plan : ActivePlan) (machine : ActiveMachine ω ε) (readings : ℕ → ℕ)
    (frame : HostFrameContext) (state : ActiveState ω ε) : StepOutcome ω ε :=
  match beginStep plan machine readings frame state with
  | .error status => ⟨status, state, {}, none⟩
  | .ok (ctx, s) => stepOutcome ctx (ctx.dispatchLoop (s.summary.dueDomainReleases + 1) s)

/-! ## Runs -/

/-- What a step is called with: its frame, the readings of the clock during the step and the
behaviour of the surroundings. -/
structure StepInput (ω ε : Type) where
  frame : HostFrameContext
  readings : ℕ → ℕ
  machine : ActiveMachine ω ε

/-- One step. -/
def ActivePlan.step (plan : ActivePlan) (state : ActiveState ω ε) (input : StepInput ω ε) :
    StepOutcome ω ε :=
  runActiveStep plan input.machine input.readings input.frame state

/-- The state after a run of steps. -/
def ActivePlan.run (plan : ActivePlan) (state : ActiveState ω ε) (inputs : List (StepInput ω ε)) :
    ActiveState ω ε :=
  inputs.foldl (fun state input => (plan.step state input).state) state

/-- What the checks before the loop establish. -/
structure StepBegun (plan : ActivePlan) (state : ActiveState ω ε) (input : StepInput ω ε)
    (ctx : StepContext ω ε) (s : StepState ω ε) : Prop where
  plan_eq : ctx.plan = plan
  machine_eq : ctx.machine = input.machine
  readings_eq : ctx.readings = input.readings
  frame_eq : ctx.frameIndex = input.frame.frameIndex
  fault : state.fault = none
  delta_pos : 0 < input.frame.deltaNs
  cursor_le : state.logicalCursorNs ≤ u64Max
  end_eq : ctx.endNs = state.logicalCursorNs + input.frame.deltaNs
  epoch_eq : ∃ nominal, input.frame.nominalReleaseNs = some nominal ∧
    state.epochFor nominal.toNat = .ok ctx.epochNs
  window_le : ctx.epochNs + ctx.endNs ≤ u64Max
  counts : ∃ counts, countDueRateWork plan.ratePlan plan.dispatch state.logicalCursorNs ctx.endNs =
      .ok counts ∧
    ctx.dueReferenceRecords = counts.referenceRecords ∧
    s.summary.dueDomainReleases = counts.domainReleases
  state_eq : s.toActiveState = state
  next_eq : s.next = fun index =>
    StepContext.ceilSequence state.logicalCursorNs (plan.period index)
  locals_eq : s.catchUpCounts = (fun _ => 0) ∧ s.settledRecords = 0 ∧
    s.summary.executedReferenceRecords = 0 ∧ s.failedPhase = none ∧ s.reads = 0

theorem checkedAdd_left_le {left right sum : ℕ} (h : checkedAdd left right = some sum) :
    left ≤ u64Max := by
  unfold checkedAdd at h
  split at h
  · cases h
  · omega

theorem HostFrameContext.deltaNs_le (frame : HostFrameContext) : frame.deltaNs ≤ u64Max := by
  have := frame.delta.toInt_lt
  unfold deltaNs u64Max
  omega

omit [DecidableEq ε] in
theorem beginStep_eq_ok {plan : ActivePlan} {state : ActiveState ω ε} {input : StepInput ω ε}
    {ctx : StepContext ω ε} {s : StepState ω ε}
    (h : beginStep plan input.machine input.readings input.frame state = .ok (ctx, s)) :
    StepBegun plan state input ctx s := by
  simp only [beginStep, bind_eq_ok, orReject_eq_ok, reject_eq_ok, Unique.exists_iff] at h
  obtain ⟨hfault, hdelta, nominal, hnominal, endNs, hend, epochNs, hepoch, nominalEnd, hwindow,
    counts, hcounts, optionalDue, hoptional, h⟩ := h
  obtain ⟨rfl, rfl⟩ := Prod.mk.inj (Except.ok.inj h)
  have hcursor := checkedAdd_left_le hend
  obtain ⟨hend_le, rfl⟩ := (checkedAdd_eq_some input.frame.deltaNs_le).mp hend
  exact {
    plan_eq := rfl
    machine_eq := rfl
    readings_eq := rfl
    frame_eq := rfl
    fault := by simpa using hfault
    delta_pos := by
      unfold HostFrameContext.deltaNs
      omega
    cursor_le := hcursor
    end_eq := rfl
    epoch_eq := ⟨nominal, hnominal, hepoch⟩
    window_le := ((checkedAdd_eq_some hend_le).mp hwindow).1
    counts := ⟨counts, hcounts, rfl, rfl⟩
    state_eq := rfl
    next_eq := rfl
    locals_eq := ⟨rfl, rfl, rfl, rfl, rfl⟩ }

omit [DecidableEq ε] in
theorem beginStep_errors (plan : ActivePlan) (state : ActiveState ω ε) (input : StepInput ω ε) :
    ErrorsSatisfy (· ≠ .ok)
      (beginStep plan input.machine input.readings input.frame state) := by
  have hdomain : ∀ {x : Except Status RateDueCounts}, ErrorsSatisfy (· ≠ Status.ok)
      (x.mapError fun _ => Status.capacityExceeded) := by
    intro x e he
    cases x with
    | ok a => cases he
    | error d =>
      obtain rfl := Except.error.inj he
      nofun
  refine .check (by decide) (.check (by decide) (.get (by decide) fun nominal =>
    .get (by decide) fun endNs => .bind ?_ fun epochNs _ => .get (by decide) fun _ =>
      .bind ?_ fun counts _ => .bind ?_ fun _ _ => .ok _))
  · unfold ActiveState.epochFor
    split
    · split
      · exact .ok _
      · exact fun e he => by cases he; decide
    · split
      · exact fun e he => by cases he; decide
      · exact .ok _
  · refine .check (by decide) (.foldlM fun t index _ => .bind hdomain fun due _ => ?_)
    exact .get (by decide) fun _ => .get (by decide) fun _ => .ok _
  · refine .foldlM fun t index _ => ?_
    unfold addOptionalDue
    exact .ite (.bind hdomain fun due _ => .orReject fun _ => by decide) (.ok _)

/-- A step either fails its checks and changes nothing, or runs the loop. -/
theorem step_cases (plan : ActivePlan) (state : ActiveState ω ε) (input : StepInput ω ε) :
    ((plan.step state input).status ≠ .ok ∧ (plan.step state input).state = state) ∨
    ∃ ctx s, StepBegun plan state input ctx s ∧
      plan.step state input =
        stepOutcome ctx (ctx.dispatchLoop (s.summary.dueDomainReleases + 1) s) := by
  cases hbegin : beginStep plan input.machine input.readings input.frame state with
  | error status =>
    left
    simp only [ActivePlan.step, runActiveStep, hbegin]
    exact ⟨beginStep_errors plan state input status hbegin, trivial⟩
  | ok begun =>
    obtain ⟨ctx, s⟩ := begun
    exact .inr ⟨ctx, s, beginStep_eq_ok hbegin, by
      simp only [ActivePlan.step, runActiveStep, hbegin]⟩

end RtRuntime
