import Mathlib.Tactic

/-!
# Boundaries of live-control updates

Producers stage updates for a boundary that is still to come: the beginning of a host frame, or one
reference release of the rate plan.  The host closes boundaries as it steps.  This module has the
data and the bookkeeping that decides, for each call the host makes, which boundaries count as
closed afterwards and which boundary, if any, the call goes on to close with its staged updates.
-/

namespace RtRuntime

section Data

inductive LiveControlTargetKind
  | hostFrame
  | rateRelease
  deriving DecidableEq, Repr

inductive LiveControlUpdateKind
  | scenarioParameters
  | controllerParameters
  | sensorCalibration
  | faultConfiguration
  | clearFault
  deriving DecidableEq, Repr

/-- `kInvalidSequence` and `kInvalidIndex`, which stand for "none". -/
def invalidSequence : UInt64 := 0xFFFFFFFFFFFFFFFF

def invalidIndex : UInt32 := 0xFFFFFFFF

structure LiveControlBoundaryTarget where
  kind : LiveControlTargetKind := .hostFrame
  frameIndex : UInt64 := invalidSequence
  rateReleaseSequence : UInt64 := invalidSequence
  referenceReleaseIndex : UInt32 := invalidIndex
  rateDomainRegistrationIndex : UInt32 := invalidIndex
  phaseIndex : UInt32 := invalidIndex
  rateSubstepOrdinal : UInt32 := invalidIndex
  deriving DecidableEq, Repr

/-- `LiveControlUpdateRecord`, without the owner fields that a stage has checked already. -/
structure LiveControlUpdateRecord where
  mailboxIdentity : UInt64
  producerIdentity : UInt64
  mailboxSequence : UInt64
  producerSequence : UInt64
  payloadDigest : UInt64
  payloadBytes : UInt32
  updateKind : LiveControlUpdateKind
  target : LiveControlBoundaryTarget
  deriving DecidableEq, Repr

/-- One reference release of the rate plan as a boundary. -/
structure LiveRateTarget where
  releaseTimeNs : UInt64
  domainRegistrationIndex : UInt32
  phaseIndex : UInt32
  substepOrdinal : UInt32
  deriving DecidableEq, Repr

end Data

section Boundaries

/-- What the mailbox set remembers about boundaries. -/
structure LiveBoundaries where
  admissionOpen : Bool
  hostBoundaryStarted : Bool
  lastHostBoundary : UInt64
  closed : ℕ → Bool

/-- `target_closed`. -/
def LiveBoundaries.targetClosed (targets : List LiveRateTarget) (b : LiveBoundaries)
    (record : LiveControlUpdateRecord) : Bool :=
  match record.target.kind with
  | .hostFrame => b.hostBoundaryStarted && record.target.frameIndex ≤ b.lastHostBoundary
  | .rateRelease =>
    targets.length ≤ record.target.referenceReleaseIndex.toNat ||
      b.closed record.target.referenceReleaseIndex.toNat

/-- The calls a step makes on the mailbox set. -/
inductive BoundaryCall
  | closeHostFrame (frameIndex : UInt64)
  | closeRateRelease (referenceReleaseIndex : ℕ) (releaseSequence : UInt64)
  | expireRateReleasesBefore (logicalTimeNs : UInt64)
  deriving DecidableEq, Repr

variable (targets : List LiveRateTarget) (b : LiveBoundaries)

/-- The release time of a target; nothing is asked beyond the plan's releases. -/
def releaseTime (index : ℕ) : UInt64 := (targets[index]?.map (·.releaseTimeNs)).getD 0

namespace LiveBoundaries

/-- The targets released before `time` that nothing has closed yet. -/
def expires (time : UInt64) (index : ℕ) : Bool :=
  index < targets.length && releaseTime targets index < time && !b.closed index

/-- `close_host_frame` up to its call of `close_boundary`. -/
def closeHostFrame (frameIndex : UInt64) : LiveBoundaries × Option LiveControlBoundaryTarget :=
  if !b.admissionOpen || (b.hostBoundaryStarted && frameIndex ≤ b.lastHostBoundary) then
    (b, none)
  else
    ({ b with hostBoundaryStarted := true, lastHostBoundary := frameIndex },
      some { kind := .hostFrame, frameIndex := frameIndex })

/-- `close_rate_release` up to its call of `close_boundary`: every earlier release is closed on the
way. -/
def closeRateRelease (index : ℕ) (releaseSequence : UInt64) :
    LiveBoundaries × Option LiveControlBoundaryTarget :=
  match targets[index]? with
  | none => (b, none)
  | some current =>
    if !b.admissionOpen then
      (b, none)
    else
      ({ b with
          closed := fun other =>
            b.closed other || b.expires targets current.releaseTimeNs other || other == index },
        if b.closed index then none
        else some
          { kind := .rateRelease
            rateReleaseSequence := releaseSequence
            referenceReleaseIndex := UInt32.ofNat index
            rateDomainRegistrationIndex := current.domainRegistrationIndex
            phaseIndex := current.phaseIndex
            rateSubstepOrdinal := current.substepOrdinal })

/-- `expire_rate_releases_before` up to its call of `close_boundary`, which gets a target that no
update can have. -/
def expireRateReleasesBefore (time : UInt64) : LiveBoundaries × Option LiveControlBoundaryTarget :=
  if !b.admissionOpen then
    (b, none)
  else
    ({ b with closed := fun other => b.closed other || b.expires targets time other },
      if (List.range targets.length).any (b.expires targets time) then
        some { kind := .rateRelease }
      else none)

/-- The boundaries after a call and the boundary it hands to `close_boundary`, if any. -/
def call : BoundaryCall → LiveBoundaries × Option LiveControlBoundaryTarget
  | .closeHostFrame frameIndex => b.closeHostFrame frameIndex
  | .closeRateRelease index releaseSequence => b.closeRateRelease targets index releaseSequence
  | .expireRateReleasesBefore time => b.expireRateReleasesBefore targets time

theorem call_stopped (stopped : b.admissionOpen = false) (c : BoundaryCall) :
    b.call targets c = (b, none) := by
  cases c with
  | closeHostFrame frameIndex => simp [LiveBoundaries.call, LiveBoundaries.closeHostFrame, stopped]
  | closeRateRelease index releaseSequence =>
    simp only [LiveBoundaries.call, LiveBoundaries.closeRateRelease, stopped]
    cases targets[index]? <;> rfl
  | expireRateReleasesBefore time =>
    simp [LiveBoundaries.call, LiveBoundaries.expireRateReleasesBefore, stopped]

end LiveBoundaries

/-- A target that updates can have: the boundaries for which `close_boundary` reports that nothing
was staged. -/
def LiveControlBoundaryTarget.Named (target : LiveControlBoundaryTarget) : Prop :=
  match target.kind with
  | .hostFrame => target.frameIndex ≠ invalidSequence
  | .rateRelease => target.referenceReleaseIndex ≠ invalidIndex

instance : (target : LiveControlBoundaryTarget) → Decidable target.Named
  | { kind := .hostFrame, frameIndex, .. } =>
    inferInstanceAs (Decidable (frameIndex ≠ invalidSequence))
  | { kind := .rateRelease, referenceReleaseIndex, .. } =>
    inferInstanceAs (Decidable (referenceReleaseIndex ≠ invalidIndex))

end Boundaries

section Closing

/-- Which staged updates the closing boundary takes. -/
def LiveControlUpdateRecord.current (record : LiveControlUpdateRecord)
    (target : LiveControlBoundaryTarget) : Bool :=
  match target.kind with
  | .hostFrame =>
    record.target.kind == .hostFrame && record.target.frameIndex == target.frameIndex
  | .rateRelease =>
    record.target.kind == .rateRelease &&
      record.target.referenceReleaseIndex == target.referenceReleaseIndex &&
      record.target.rateReleaseSequence == target.rateReleaseSequence

/-- The order in which captured updates enter a generation. -/
def captureOrder (left right : LiveControlUpdateRecord) : Bool :=
  left.mailboxIdentity < right.mailboxIdentity ||
    (left.mailboxIdentity == right.mailboxIdentity && left.mailboxSequence ≤ right.mailboxSequence)

/-- A captured update survives if no later one of its mailbox has the same kind. -/
def survivors : List LiveControlUpdateRecord → List LiveControlUpdateRecord
  | [] => []
  | record :: later =>
    if later.any fun other =>
        other.mailboxIdentity == record.mailboxIdentity && other.updateKind == record.updateKind then
      survivors later
    else record :: survivors later

end Closing

end RtRuntime
