import RtRuntime.LiveControl

/-!
# Replay of boundary closes

A recorded run logs what every close of a boundary did.  In a replay the same calls are made, and
each close is sent to an injector that looks the boundary up in the record: the next retained
generation if its target is the boundary, otherwise a record that the boundary was empty.  A close
for which the run logged nothing has no counterpart there.
-/

namespace RtRuntime

section Records

inductive LiveControlActionId
  | admission
  | boundaryEmpty
  | provisionalPublication
  | committed
  | replaced
  | missed
  | stopped
  | rolledBack
  | checkpointed
  | replayVerified
  deriving DecidableEq, Repr

/-- The part of `LiveControlActionRecord` that boundary closes fill in. -/
structure LiveControlActionRecord where
  sequence : UInt64 := 0
  action : LiveControlActionId
  target : LiveControlBoundaryTarget
  mailboxIdentity : UInt64 := 0
  producerIdentity : UInt64 := 0
  mailboxSequence : UInt64 := 0
  producerSequence : UInt64 := 0
  payloadDigest : UInt64 := 0
  payloadBytes : UInt32 := 0
  generationIdentity : UInt64 := 0
  priorGenerationIdentity : UInt64 := 0
  survivorCount : UInt32 := 0
  replacedCount : UInt32 := 0
  deriving DecidableEq, Repr

/-- `replay_historical_only`: actions that a replay takes over from the record. -/
def LiveControlActionId.historicalOnly : LiveControlActionId → Bool
  | .admission | .missed | .stopped | .checkpointed | .replayVerified => true
  | _ => false

structure LiveControlRetainedGeneration where
  target : LiveControlBoundaryTarget
  generationIdentity : UInt64
  priorGenerationIdentity : UInt64
  deriving DecidableEq, Repr

/-- A parsed replay artifact.  A lossless one also retains the admissions and the point at which
admission was closed. -/
structure LiveControlReplayView where
  lossless : Bool
  actions : List LiveControlActionRecord
  retained : List LiveControlRetainedGeneration
  admissionCloseSequence : UInt64 := invalidSequence

end Records

section Recording

variable (targets : List LiveRateTarget)

def missedAction (record : LiveControlUpdateRecord) : LiveControlActionRecord where
  action := .missed
  target := record.target
  mailboxIdentity := record.mailboxIdentity
  producerIdentity := record.producerIdentity
  mailboxSequence := record.mailboxSequence
  producerSequence := record.producerSequence
  payloadDigest := record.payloadDigest
  payloadBytes := record.payloadBytes

/-- A run being recorded: the boundaries, the identity of the active generation (zero for none) and
the log. -/
structure RecordedRun where
  boundaries : LiveBoundaries
  generationIdentity : UInt64
  log : List LiveControlActionRecord

/-- What `close_boundary` logs when the updates in `staged` are staged: one action for each update
that missed its boundary, and one for the boundary itself unless the target is the unnamed one and
nothing was captured. -/
def closeActions (identify : LiveControlBoundaryTarget → List LiveControlUpdateRecord → UInt64)
    (run : RecordedRun) (staged : List LiveControlUpdateRecord)
    (target : LiveControlBoundaryTarget) : List LiveControlActionRecord :=
  let missed := staged.filter fun record =>
    !record.current target && run.boundaries.targetClosed targets record
  let captured := (staged.filter (·.current target)).mergeSort captureOrder
  let surviving := survivors captured
  missed.map missedAction ++
    if surviving = [] then
      if target.Named then
        [{ action := .boundaryEmpty
           target := target
           generationIdentity := run.generationIdentity
           priorGenerationIdentity := run.generationIdentity }]
      else []
    else
      [{ action := .provisionalPublication
         target := target
         generationIdentity := identify target surviving
         priorGenerationIdentity := run.generationIdentity
         survivorCount := UInt32.ofNat surviving.length
         replacedCount := UInt32.ofNat (captured.length - surviving.length) }]

variable (identify : LiveControlBoundaryTarget → List LiveControlUpdateRecord → UInt64)

/-- The actions a call logs. -/
def RecordedRun.emitted (run : RecordedRun) (call : BoundaryCall)
    (staged : List LiveControlUpdateRecord) : List LiveControlActionRecord :=
  match run.boundaries.call targets call with
  | (_, none) => []
  | (boundaries, some target) =>
    closeActions targets identify { run with boundaries := boundaries } staged target

/-- The run after a call; a publication makes its generation the active one. -/
def RecordedRun.call (run : RecordedRun) (call : BoundaryCall)
    (staged : List LiveControlUpdateRecord) : RecordedRun where
  boundaries := (run.boundaries.call targets call).1
  generationIdentity :=
    match (run.emitted targets identify call staged).getLast? with
    | some action => if action.action = .provisionalPublication then action.generationIdentity
      else run.generationIdentity
    | none => run.generationIdentity
  log := run.log ++ run.emitted targets identify call staged

/-- What `settle_step_transaction` leaves: the active generation, which after a failed step is the
one from before it, and an action for each provisional update. -/
structure Settlement where
  generationIdentity : UInt64
  actions : List LiveControlActionRecord

/-- A call with what is staged when it closes, or the settlement of a step, in the run and in its
replay. -/
inductive StepEvent
  | call (call : BoundaryCall) (staged : List LiveControlUpdateRecord)
  | settle (recorded replayed : Settlement)

def RecordedRun.event (run : RecordedRun) : StepEvent → RecordedRun
  | .call call staged => run.call targets identify call staged
  | .settle recorded _ =>
    { run with
      generationIdentity := recorded.generationIdentity
      log := run.log ++ recorded.actions }

def RecordedRun.events (run : RecordedRun) : List StepEvent → RecordedRun :=
  List.foldl (RecordedRun.event targets identify) run

end Recording

section Replaying

inductive ReplayMismatch
  | invalidArtifact
  | incompatibleArtifact
  deriving DecidableEq, Repr

/-- The state of a replay: `replay_mismatch` is the status, `none` standing for `ok`. -/
structure LiveReplay where
  boundaries : LiveBoundaries
  generationIdentity : UInt64
  replayGenerationIndex : ℕ
  replayActionIndex : ℕ
  replayMismatch : Option ReplayMismatch

/-- The parts of a replay that rebuild slots and generations from the record: taking over a retained
admission, and republishing a retained generation with the action that announces it.  Each may find
that the record does not fit. -/
structure ReplayRebuild where
  admitRecorded : LiveReplay → LiveControlActionRecord → Option ReplayMismatch
  republish : LiveReplay → LiveControlRetainedGeneration → Option ReplayMismatch

variable (rebuild : ReplayRebuild) (view : LiveControlReplayView)
variable (replay : LiveReplay)

/-- Admission ends where the record says so. -/
def LiveReplay.endAdmission (ends : Bool) : LiveReplay :=
  { replay with
    boundaries :=
      { replay.boundaries with admissionOpen := replay.boundaries.admissionOpen && !ends } }

/-- `consume_replay_history` over the actions that remain. -/
def consumeHistory : List LiveControlActionRecord → LiveReplay → LiveReplay
  | [], replay =>
    replay.endAdmission (view.lossless && view.admissionCloseSequence != invalidSequence)
  | expected :: rest, replay =>
    let admitting := replay.endAdmission
      (view.lossless && view.admissionCloseSequence ≤ expected.sequence)
    if !expected.action.historicalOnly then admitting
    else
      match if view.lossless then rebuild.admitRecorded admitting expected else none with
      | some mismatch => { admitting with replayMismatch := some mismatch }
      | none =>
        consumeHistory rest { admitting with replayActionIndex := replay.replayActionIndex + 1 }

def LiveReplay.consumeReplayHistory : LiveReplay :=
  consumeHistory rebuild view (view.actions.drop replay.replayActionIndex) replay

/-- `emit_action` in a replay: the action has to be the next one of the record. -/
def LiveReplay.emitAction (action : LiveControlActionRecord) : LiveReplay :=
  let replay := replay.consumeReplayHistory rebuild view
  match replay.replayMismatch, view.actions[replay.replayActionIndex]? with
  | none, some expected =>
    if { action with sequence := expected.sequence } = expected then
      { replay with replayActionIndex := replay.replayActionIndex + 1 }
    else { replay with replayMismatch := some .incompatibleArtifact }
  | _, _ => { replay with replayMismatch := some .invalidArtifact }

/-- The injector where the next retained generation is not this boundary's: the record has to have
an empty boundary for it. -/
def LiveReplay.injectEmpty (target : LiveControlBoundaryTarget) :
    LiveReplay :=
  if view.actions.any fun action =>
      action.action == .boundaryEmpty && action.target == target then
    replay.emitAction rebuild view
      { action := .boundaryEmpty
        target := target
        generationIdentity := replay.generationIdentity
        priorGenerationIdentity := replay.generationIdentity }
  else { replay with replayMismatch := some .invalidArtifact }

/-- The injector once the history is consumed: the next retained generation, an empty boundary, or
no counterpart at all. -/
def LiveReplay.injectTarget (target : LiveControlBoundaryTarget) :
    LiveReplay :=
  match view.retained[replay.replayGenerationIndex]? with
  | some retained =>
    if retained.target = target then
      if retained.priorGenerationIdentity ≠ replay.generationIdentity then
        { replay with replayMismatch := some .incompatibleArtifact }
      else
        match rebuild.republish replay retained with
        | some mismatch => { replay with replayMismatch := some mismatch }
        | none =>
          { replay with
            generationIdentity := retained.generationIdentity
            replayGenerationIndex := replay.replayGenerationIndex + 1
            replayActionIndex := replay.replayActionIndex + 1 }
    else replay.injectEmpty rebuild view target
  | none => replay.injectEmpty rebuild view target

/-- `inject_replay_boundary`. -/
def LiveReplay.inject (target : LiveControlBoundaryTarget) : LiveReplay :=
  let consumed := if view.lossless then replay.consumeReplayHistory rebuild view else replay
  if view.lossless && consumed.replayMismatch.isSome then consumed
  else consumed.injectTarget rebuild view target

variable (targets : List LiveRateTarget)

def LiveReplay.call (replay : LiveReplay) (call : BoundaryCall) : LiveReplay :=
  match replay.boundaries.call targets call with
  | (boundaries, none) => { replay with boundaries := boundaries }
  | (boundaries, some target) =>
    { replay with boundaries := boundaries }.inject rebuild view target

def LiveReplay.event (replay : LiveReplay) : StepEvent → LiveReplay
  | .call call _ => replay.call rebuild view targets call
  | .settle _ replayed =>
    replayed.actions.foldl (LiveReplay.emitAction rebuild view)
      { replay with generationIdentity := replayed.generationIdentity }

def LiveReplay.events (replay : LiveReplay) : List StepEvent → LiveReplay :=
  List.foldl (LiveReplay.event rebuild view targets) replay

end Replaying

section Correspondence

variable (targets : List LiveRateTarget) (rebuild : ReplayRebuild) (view : LiveControlReplayView)
variable (identify : LiveControlBoundaryTarget → List LiveControlUpdateRecord → UInt64)

/-- The boundaries of a replay that still admits are those of the recorded run. -/
def Follows (run : RecordedRun) (replay : LiveReplay) : Prop :=
  replay.boundaries.admissionOpen = true → replay.boundaries = run.boundaries

/-- A replay changes the boundaries by itself only to close admission. -/
def KeepsBoundaries (before after : LiveReplay) : Prop :=
  after.boundaries.admissionOpen = true → after.boundaries = before.boundaries

variable {targets rebuild view identify}

theorem KeepsBoundaries.trans {first second third : LiveReplay} (h : KeepsBoundaries first second)
    (h' : KeepsBoundaries second third) : KeepsBoundaries first third := by
  intro still
  have kept := h' still
  rw [kept] at still ⊢
  exact h still

variable (replay : LiveReplay)

theorem LiveReplay.endAdmission_keepsBoundaries (ends : Bool) :
    KeepsBoundaries replay (replay.endAdmission ends) := by
  intro still
  cases ends with
  | true => simp [LiveReplay.endAdmission] at still
  | false => simp [LiveReplay.endAdmission]

theorem consumeHistory_keepsBoundaries (actions : List LiveControlActionRecord)
    (replay : LiveReplay) : KeepsBoundaries replay (consumeHistory rebuild view actions replay) := by
  induction actions generalizing replay with
  | nil => exact replay.endAdmission_keepsBoundaries _
  | cons expected rest ih =>
    have first := replay.endAdmission_keepsBoundaries
      (view.lossless && view.admissionCloseSequence ≤ expected.sequence)
    simp only [consumeHistory]
    split
    · exact first
    · split
      · exact first
      · exact first.trans (ih _)

theorem LiveReplay.consume_keepsBoundaries :
    KeepsBoundaries replay (replay.consumeReplayHistory rebuild view) :=
  consumeHistory_keepsBoundaries _ replay

theorem LiveReplay.emitAction_keepsBoundaries (action : LiveControlActionRecord) :
    KeepsBoundaries replay (replay.emitAction rebuild view action) := by
  have consumed : KeepsBoundaries replay (replay.consumeReplayHistory rebuild view) :=
    replay.consume_keepsBoundaries
  simp only [LiveReplay.emitAction]
  split
  · split <;> exact consumed
  · exact consumed

theorem LiveReplay.emitActions_keepsBoundaries (actions : List LiveControlActionRecord)
    (replay : LiveReplay) :
    KeepsBoundaries replay (actions.foldl (LiveReplay.emitAction rebuild view) replay) := by
  induction actions generalizing replay with
  | nil => exact fun _ => rfl
  | cons first rest ih => exact (replay.emitAction_keepsBoundaries first).trans (ih _)

theorem LiveReplay.injectTarget_keepsBoundaries (target : LiveControlBoundaryTarget) :
    KeepsBoundaries replay (replay.injectTarget rebuild view target) := by
  have empty : KeepsBoundaries replay
      (replay.injectEmpty rebuild view target) := by
    simp only [LiveReplay.injectEmpty]
    split
    · exact replay.emitAction_keepsBoundaries _
    · exact fun _ => rfl
  simp only [LiveReplay.injectTarget]
  split
  · split
    · split
      · exact fun _ => rfl
      · split <;> exact fun _ => rfl
    · exact empty
  · exact empty

theorem LiveReplay.inject_keepsBoundaries (target : LiveControlBoundaryTarget) :
    KeepsBoundaries replay (replay.inject rebuild view target) := by
  have consumed : KeepsBoundaries replay
      (if view.lossless then replay.consumeReplayHistory rebuild view else replay) := by
    split
    · exact replay.consume_keepsBoundaries
    · exact fun _ => rfl
  rw [LiveReplay.inject]
  generalize (if view.lossless then replay.consumeReplayHistory rebuild view else replay) = next
    at consumed ⊢
  split
  · exact consumed
  · exact consumed.trans (LiveReplay.injectTarget_keepsBoundaries _ target)

variable {run : RecordedRun}

theorem Follows.call {replay : LiveReplay} (h : Follows run replay) (call : BoundaryCall)
    (staged : List LiveControlUpdateRecord) :
    Follows (run.call targets identify call staged) (replay.call rebuild view targets call) := by
  by_cases admits : replay.boundaries.admissionOpen = true
  · have same := h admits
    simp only [Follows, RecordedRun.call, LiveReplay.call]
    rw [same]
    split
    next boundaries closed => rw [closed]; exact fun _ => rfl
    next boundaries target closed =>
      rw [closed]
      exact LiveReplay.inject_keepsBoundaries _ target
  · simp only [Follows, LiveReplay.call]
    rw [LiveBoundaries.call_stopped targets _ (by simpa using admits)]
    exact fun still => absurd still admits

theorem Follows.event {replay : LiveReplay} (h : Follows run replay) (event : StepEvent) :
    Follows (run.event targets identify event) (replay.event rebuild view targets event) := by
  cases event with
  | call call staged => exact h.call call staged
  | settle recorded replayed =>
    intro still
    have kept := LiveReplay.emitActions_keepsBoundaries replayed.actions _ still
    exact kept.trans (h (kept ▸ still))

theorem Follows.events {replay : LiveReplay} (h : Follows run replay) (events : List StepEvent) :
    Follows (run.events targets identify events) (replay.events rebuild view targets events) := by
  induction events generalizing run replay with
  | nil => exact h
  | cons first rest ih => exact ih (h.event first)

/-- The calls for which the record has a counterpart whenever the run did something: a frame with a
proper index, and an expiry that finds every earlier release closed already. -/
def BoundaryCall.Accounted (targets : List LiveRateTarget) (b : LiveBoundaries) :
    BoundaryCall → Prop
  | .closeHostFrame frameIndex => frameIndex ≠ invalidSequence
  | .closeRateRelease _ _ => True
  | .expireRateReleasesBefore time =>
    ∀ index < targets.length, releaseTime targets index < time → b.closed index = true

/-- An accounted call closes a boundary that updates can name, or none. -/
theorem LiveBoundaries.call_named (short : targets.length ≤ invalidIndex.toNat)
    {b : LiveBoundaries} {call : BoundaryCall} (accounted : call.Accounted targets b)
    {target : LiveControlBoundaryTarget} (closes : (b.call targets call).2 = some target) :
    target.Named := by
  cases call with
  | closeHostFrame frameIndex =>
    simp only [LiveBoundaries.call, LiveBoundaries.closeHostFrame] at closes
    split at closes
    · cases closes
    · cases closes
      exact accounted
  | closeRateRelease index releaseSequence =>
    simp only [LiveBoundaries.call, LiveBoundaries.closeRateRelease] at closes
    split at closes
    next => cases closes
    next current found =>
      have inside : index < targets.length := (List.getElem?_eq_some_iff.mp found).1
      split at closes
      · cases closes
      · simp only at closes
        split at closes
        · cases closes
        · cases closes
          intro same
          have index_eq : (UInt32.ofNat index).toNat = index := by
            have : invalidIndex.toNat = 4294967295 := by decide
            rw [UInt32.toNat_ofNat']
            omega
          have : (UInt32.ofNat index).toNat = invalidIndex.toNat := congrArg UInt32.toNat same
          omega
  | expireRateReleasesBefore time =>
    simp only [LiveBoundaries.call, LiveBoundaries.expireRateReleasesBefore] at closes
    split at closes
    · cases closes
    · simp only at closes
      split at closes
      next expired =>
        obtain ⟨index, member, expires⟩ := List.any_eq_true.mp expired
        simp only [LiveBoundaries.expires, Bool.and_eq_true, decide_eq_true_eq,
          Bool.not_eq_true'] at expires
        have := accounted index (List.mem_range.mp member) expires.1.2
        simp [expires.2] at this
      next => cases closes

/-- A close of a boundary that updates can name is always logged. -/
theorem closeActions_ne_nil {staged : List LiveControlUpdateRecord}
    {target : LiveControlBoundaryTarget} (named : target.Named) :
    closeActions targets identify run staged target ≠ [] := by
  simp only [closeActions, if_pos named]
  split <;> simp

end Correspondence

section Inputs

/-- One release at time zero and nothing closed yet. -/
def oneRelease : List LiveRateTarget :=
  [{ releaseTimeNs := 0, domainRegistrationIndex := 0, phaseIndex := 0, substepOrdinal := 0 }]

def nothingClosed : LiveBoundaries where
  admissionOpen := true
  hostBoundaryStarted := false
  lastHostBoundary := 0
  closed _ := false

def freshRun : RecordedRun where
  boundaries := nothingClosed
  generationIdentity := 0
  log := []

def freshReplay : LiveReplay where
  boundaries := nothingClosed
  generationIdentity := 0
  replayGenerationIndex := 0
  replayActionIndex := 0
  replayMismatch := none

/-- A rebuild that finds no fault. -/
def trustingRebuild : ReplayRebuild where
  admitRecorded _ _ := none
  republish _ _ := none

/-- A step that executes the release and is settled. -/
def settledStep : List StepEvent :=
  [.call (.closeHostFrame 1) [], .call (.closeRateRelease 0 0) [], .settle ⟨0, []⟩ ⟨0, []⟩]

/-- What a run logged, as a replay reads it. -/
def RecordedRun.view (run : RecordedRun) : LiveControlReplayView where
  lossless := false
  actions := run.log
  retained := []

end Inputs

end RtRuntime
