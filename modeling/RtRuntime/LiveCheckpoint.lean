import RtRuntime.LiveTransaction

/-!
# Restoring live controls from a checkpoint

A checkpoint artifact is laid out by section: the header with the boundaries, the counters and the
active generation, one entry for each mailbox, producer, slot and rate target, and the payloads.  It
is taken here by its entries, and `restore_checkpoint_state` is the function that puts them in the
place of whatever the mailbox set held before, outside of a replay.

What the inspection calls show afterwards is then compared for two mailbox sets of one
configuration.  Records and generations carry the runtime and the configuration generation of the
mailbox set that holds them, and a restore counts the latter up, so these two are the set's own.
-/

namespace RtRuntime

open List

section State

/-- The `runtime_id` and `configuration_generation` that mark what a mailbox set hands out. -/
structure LiveOwner where
  runtimeId : UInt64
  configurationGeneration : UInt64
  deriving DecidableEq, Repr

structure OwnedRecord where
  owner : LiveOwner
  record : LiveControlUpdateRecord
  deriving DecidableEq, Repr

structure OwnedGeneration where
  owner : LiveOwner
  generationIdentity : UInt64
  target : LiveControlBoundaryTarget
  records : List (OwnedRecord × List UInt8)
  deriving DecidableEq, Repr

structure OwnedSlot where
  state : LiveSlotState
  record : OwnedRecord
  payload : List UInt8
  terminalGeneration : UInt64
  deriving DecidableEq, Repr

structure MailboxCounters where
  accepted : UInt64
  invalid : UInt64
  full : UInt64
  busy : UInt64
  stale : UInt64
  stopped : UInt64
  exhausted : UInt64
  missed : UInt64
  deriving DecidableEq, Repr

/-- A mailbox; its `record_capacity` is the number of its slots. -/
structure LiveMailbox where
  mailboxIdentity : UInt64
  payloadBytesPerRecord : ℕ
  nextSequence : UInt64
  counters : MailboxCounters
  occupancy : UInt32
  reclaiming : Bool
  slots : List OwnedSlot
  deriving DecidableEq, Repr

/-- The `latest_*` fields, which `commit_info` reads in place of the generation itself. -/
structure LatestGeneration where
  generationIdentity : UInt64
  target : LiveControlBoundaryTarget
  survivorCount : UInt32
  deriving DecidableEq, Repr

structure LiveMailboxSet where
  owner : LiveOwner
  mailboxes : List LiveMailbox
  producerNextSequences : List UInt64
  admissionOpen : Bool
  hostBoundaryStarted : Bool
  lastHostBoundary : UInt64
  rateTargetsClosed : List Bool
  committed : UInt64
  replaced : UInt64
  missed : UInt64
  stopped : UInt64
  generations : Bool → OwnedGeneration
  activeGeneration : Bool
  hasGeneration : Bool
  latest : LatestGeneration
  inspectionVersion : ℕ
  nextAction : UInt64

end State

section Artifact

structure SlotSection where
  state : LiveSlotState
  record : LiveControlUpdateRecord
  payload : List UInt8
  terminalGeneration : UInt64

structure MailboxSection where
  nextSequence : UInt64
  counters : MailboxCounters
  occupancy : UInt32
  slots : List SlotSection

structure CheckpointArtifact where
  generation : Option LiveGeneration
  lastHostBoundary : UInt64
  hostStarted : Bool
  admissionOpen : Bool
  committed : UInt64
  replaced : UInt64
  missed : UInt64
  stopped : UInt64
  nextAction : UInt64
  mailboxes : List MailboxSection
  producers : List UInt64
  rateTargets : List Bool

end Artifact

section Restore

/-- The record a value-initialized slot has. -/
def LiveControlUpdateRecord.unset : LiveControlUpdateRecord where
  mailboxIdentity := 0
  producerIdentity := 0
  mailboxSequence := 0
  producerSequence := 0
  payloadDigest := 0
  payloadBytes := 0
  updateKind := .scenarioParameters
  target := {}

variable (owner : LiveOwner)

/-- What a restore leaves in a slot: storage is zeroed first, and a slot that is free in the artifact
stays so. -/
def SlotSection.restore (stride : ℕ) (s : SlotSection) : OwnedSlot :=
  if s.state = .free then
    { state := s.state
      record := ⟨⟨0, 0⟩, .unset⟩
      payload := List.replicate stride 0
      terminalGeneration := s.terminalGeneration }
  else
    { state := s.state
      record := ⟨owner, s.record⟩
      payload := s.payload.take s.record.payloadBytes.toNat ++
        List.replicate (stride - s.record.payloadBytes.toNat) 0
      terminalGeneration := s.terminalGeneration }

def LiveMailbox.restore (mailbox : LiveMailbox) (s : MailboxSection) : LiveMailbox :=
  { mailbox with
    nextSequence := s.nextSequence
    counters := s.counters
    occupancy := s.occupancy
    slots := List.zipWith
      (fun _ slot => slot.restore owner mailbox.payloadBytesPerRecord) mailbox.slots s.slots }

def LiveGeneration.restore (generation : LiveGeneration) : OwnedGeneration where
  owner := owner
  generationIdentity := generation.generationIdentity
  target := generation.target
  records := generation.records.map fun r => (⟨owner, r.1⟩, r.2)

/-- `restore_checkpoint_state` on an artifact that was accepted.  Without a generation in the artifact
only the identity and the survivor count of the latest generation are reset. -/
def LiveMailboxSet.restoreCheckpointState (set : LiveMailboxSet) (artifact : CheckpointArtifact) :
    LiveMailboxSet :=
  let owner : LiveOwner :=
    { set.owner with configurationGeneration := set.owner.configurationGeneration + 1 }
  let restored : LiveMailboxSet :=
    { set with
      owner := owner
      mailboxes := List.zipWith (LiveMailbox.restore owner) set.mailboxes artifact.mailboxes
      producerNextSequences :=
        List.zipWith (fun _ next => next) set.producerNextSequences artifact.producers
      admissionOpen := artifact.admissionOpen
      hostBoundaryStarted := artifact.hostStarted
      lastHostBoundary := artifact.lastHostBoundary
      rateTargetsClosed :=
        List.zipWith (fun _ closed => closed) set.rateTargetsClosed artifact.rateTargets
      committed := artifact.committed
      replaced := artifact.replaced
      missed := artifact.missed
      stopped := artifact.stopped
      nextAction := artifact.nextAction }
  match artifact.generation with
  | some generation =>
    { restored with
      generations := Function.update set.generations false (generation.restore owner)
      activeGeneration := false
      hasGeneration := true
      latest :=
        { generationIdentity := generation.generationIdentity
          target := generation.target
          survivorCount := UInt32.ofNat generation.records.length } }
  | none =>
    { restored with
      hasGeneration := false
      latest := { set.latest with generationIdentity := 0, survivorCount := 0 } }

end Restore

section Inspection

variable (set : LiveMailboxSet)

/-- `find_mailbox`. -/
def LiveMailboxSet.findMailbox (identity : UInt64) : Option LiveMailbox :=
  set.mailboxes.find? (·.mailboxIdentity == identity)

/-- A slot in which the inspection calls find a sequence. -/
def OwnedSlot.shows (mailboxSequence : UInt64) (slot : OwnedSlot) : Bool :=
  slot.state != .free && slot.state != .writing &&
    slot.record.record.mailboxSequence == mailboxSequence

/-- The slot that `record_at`, `copy_payload` and `record_status` look at. -/
def LiveMailboxSet.inspect (mailboxIdentity mailboxSequence : UInt64) :
    Option OwnedSlot :=
  if mailboxSequence = 0 then none
  else
    (set.findMailbox mailboxIdentity).bind fun mailbox =>
      if mailbox.reclaiming then none else mailbox.slots.find? (·.shows mailboxSequence)

def LiveMailboxSet.recordAt (mailboxIdentity mailboxSequence : UInt64) :
    Option OwnedRecord :=
  (set.inspect mailboxIdentity mailboxSequence).map (·.record)

inductive CopyPayloadResult
  | ok (bytes : List UInt8)
  | invalidArgument
  | capacityExceeded
  deriving DecidableEq, Repr

/-- `copy_payload` into a span of `size` bytes. -/
def LiveMailboxSet.copyPayload (mailboxIdentity mailboxSequence : UInt64)
    (size : ℕ) : CopyPayloadResult :=
  match set.inspect mailboxIdentity mailboxSequence with
  | none => .invalidArgument
  | some slot =>
    if size ≠ slot.record.record.payloadBytes.toNat then .capacityExceeded
    else .ok (slot.payload.take size)

inductive LiveControlRecordStatus
  | staged
  | committed
  | replaced
  | missed
  | stopped
  | rolledBack
  deriving DecidableEq, Repr

/-- `public_status`. -/
def LiveSlotState.publicStatus : LiveSlotState → LiveControlRecordStatus
  | .staged | .boundaryOwned | .free | .writing => .staged
  | .committed => .committed
  | .replaced => .replaced
  | .missed => .missed
  | .stopped => .stopped
  | .rolledBack => .rolledBack

structure LiveControlRecordStatusInfo where
  owner : LiveOwner
  mailboxIdentity : UInt64
  mailboxSequence : UInt64
  producerIdentity : UInt64
  producerSequence : UInt64
  generationIdentity : UInt64
  status : LiveControlRecordStatus
  updateKind : LiveControlUpdateKind
  targetKind : LiveControlTargetKind
  deriving DecidableEq, Repr

/-- The status of the record in a slot, as a set with this owner reports it. -/
def OwnedSlot.statusInfo (owner : LiveOwner) (slot : OwnedSlot) : LiveControlRecordStatusInfo where
  owner := owner
  mailboxIdentity := slot.record.record.mailboxIdentity
  mailboxSequence := slot.record.record.mailboxSequence
  producerIdentity := slot.record.record.producerIdentity
  producerSequence := slot.record.record.producerSequence
  generationIdentity := slot.terminalGeneration
  status := slot.state.publicStatus
  updateKind := slot.record.record.updateKind
  targetKind := slot.record.record.target.kind

def LiveMailboxSet.recordStatus (mailboxIdentity mailboxSequence : UInt64) :
    Option LiveControlRecordStatusInfo :=
  (set.inspect mailboxIdentity mailboxSequence).map (·.statusInfo set.owner)

structure LiveControlCommitInfo where
  owner : LiveOwner
  survivorCount : UInt32
  generationIdentity : UInt64
  target : LiveControlBoundaryTarget
  committed : UInt64
  replaced : UInt64
  missed : UInt64
  stopped : UInt64
  stagedOccupancy : UInt32
  deriving DecidableEq, Repr

/-- The sum that `commit_info` takes over the mailboxes. -/
def LiveMailboxSet.occupancy (set : LiveMailboxSet) : UInt64 :=
  set.mailboxes.foldl (fun sum mailbox => sum + mailbox.occupancy.toUInt64) 0

def LiveMailboxSet.commitInfo : Option LiveControlCommitInfo :=
  if set.inspectionVersion % 2 ≠ 0 ∨ 0xFFFFFFFF < set.occupancy then none
  else some
    { owner := set.owner
      survivorCount := set.latest.survivorCount
      generationIdentity := set.latest.generationIdentity
      target := set.latest.target
      committed := set.committed
      replaced := set.replaced
      missed := set.missed
      stopped := set.stopped
      stagedOccupancy := set.occupancy.toUInt32 }

/-- What `copy_generation` copies when a step begins: the active generation with its records and
payloads. -/
def LiveMailboxSet.copyGeneration : Option OwnedGeneration :=
  if set.hasGeneration then some (set.generations set.activeGeneration) else none

end Inspection

section Noninterference

/-- What the configuration fixes of a mailbox. -/
def LiveMailbox.configuration (mailbox : LiveMailbox) : UInt64 × ℕ × ℕ :=
  (mailbox.mailboxIdentity, mailbox.payloadBytesPerRecord, mailbox.slots.length)

def LiveMailboxSet.SameConfiguration (a b : LiveMailboxSet) : Prop :=
  a.mailboxes.map LiveMailbox.configuration = b.mailboxes.map LiveMailbox.configuration

/-- No call is in the middle of a mailbox or of a publication. -/
def LiveMailboxSet.Quiescent (set : LiveMailboxSet) : Prop :=
  (∀ mailbox ∈ set.mailboxes, mailbox.reclaiming = false) ∧ set.inspectionVersion % 2 = 0

def OwnedRecord.withOwner (owner : LiveOwner) (r : OwnedRecord) : OwnedRecord :=
  { r with owner := owner }

def OwnedGeneration.withOwner (owner : LiveOwner) (g : OwnedGeneration) : OwnedGeneration :=
  { g with owner := owner, records := g.records.map fun r => (r.1.withOwner owner, r.2) }

def LiveControlRecordStatusInfo.withOwner (owner : LiveOwner) (i : LiveControlRecordStatusInfo) :
    LiveControlRecordStatusInfo :=
  { i with owner := owner }

def LiveControlCommitInfo.withOwner (owner : LiveOwner) (i : LiveControlCommitInfo) :
    LiveControlCommitInfo :=
  { i with owner := owner }

/-- The commit info without the descriptor of the latest generation's boundary. -/
def LiveControlCommitInfo.withoutTarget (i : LiveControlCommitInfo) : LiveControlCommitInfo :=
  { i with target := {} }

/-- A slot of another set, unless it is free: a free slot's record belongs to nobody. -/
def OwnedSlot.withOwner (owner : LiveOwner) (slot : OwnedSlot) : OwnedSlot :=
  if slot.state = .free then slot else { slot with record := slot.record.withOwner owner }

def LiveMailbox.withOwner (owner : LiveOwner) (mailbox : LiveMailbox) : LiveMailbox :=
  { mailbox with slots := mailbox.slots.map (OwnedSlot.withOwner owner) }

theorem SlotSection.restore_withOwner (o p : LiveOwner) (stride : ℕ) (s : SlotSection) :
    (s.restore o stride).withOwner p = s.restore p stride := by
  by_cases free : s.state = .free
  · simp [SlotSection.restore, OwnedSlot.withOwner, free]
  · simp [SlotSection.restore, OwnedSlot.withOwner, OwnedRecord.withOwner, free]

theorem zipWith_right {α β γ : Type*} (f : β → γ) :
    ∀ (left left' : List α) (right : List β), left.length = left'.length →
      zipWith (fun _ x => f x) left right = zipWith (fun _ x => f x) left' right
  | [], [], _, _ => rfl
  | _ :: left, _ :: left', [], _ => rfl
  | _ :: left, _ :: left', x :: right, same => by
    simpa using zipWith_right f left left' right (by simpa using same)

theorem LiveMailbox.restore_withOwner {a b : LiveMailbox} (o p : LiveOwner) (s : MailboxSection)
    (same : a.configuration = b.configuration) (open_a : a.reclaiming = false)
    (open_b : b.reclaiming = false) :
    (a.restore o s).withOwner p = b.restore p s := by
  simp only [LiveMailbox.configuration, Prod.mk.injEq] at same
  obtain ⟨identity, stride, capacity⟩ := same
  have slots : (zipWith (fun _ slot => slot.restore o a.payloadBytesPerRecord) a.slots
      s.slots).map (OwnedSlot.withOwner p) =
      zipWith (fun _ slot => slot.restore p b.payloadBytesPerRecord) b.slots s.slots := by
    rw [map_zipWith, ← stride, ← zipWith_right _ a.slots b.slots s.slots capacity]
    simp only [SlotSection.restore_withOwner]
  simp [LiveMailbox.restore, LiveMailbox.withOwner, identity, stride, open_a, open_b, ← slots]

/-- The mailboxes of two restored sets differ in the owner of what they hold only. -/
theorem restoredMailboxes (o p : LiveOwner) :
    ∀ (as bs : List LiveMailbox) (sections : List MailboxSection),
      as.map LiveMailbox.configuration = bs.map LiveMailbox.configuration →
      (∀ mailbox ∈ as, mailbox.reclaiming = false) → (∀ mailbox ∈ bs, mailbox.reclaiming = false) →
      (zipWith (LiveMailbox.restore o) as sections).map (LiveMailbox.withOwner p) =
        zipWith (LiveMailbox.restore p) bs sections
  | [], [], _, _, _, _ => rfl
  | [], _ :: _, _, same, _, _ => by simp at same
  | _ :: _, [], _, same, _, _ => by simp at same
  | _ :: _, _ :: _, [], _, _, _ => rfl
  | a :: as, b :: bs, s :: sections, same, open_as, open_bs => by
    simp only [map_cons, cons.injEq] at same
    simp only [mem_cons, forall_eq_or_imp] at open_as open_bs
    simp only [zipWith_cons_cons, map_cons,
      LiveMailbox.restore_withOwner o p s same.1 open_as.1 open_bs.1,
      restoredMailboxes o p as bs sections same.2 open_as.2 open_bs.2]

/-- Two sets hold the same mailboxes, each under its own name. -/
def LiveMailboxSet.SameMailboxes (a b : LiveMailboxSet) : Prop :=
  b.mailboxes = a.mailboxes.map (LiveMailbox.withOwner b.owner)

@[simp]
theorem OwnedSlot.shows_withOwner (owner : LiveOwner) (sequence : UInt64) (slot : OwnedSlot) :
    (slot.withOwner owner).shows sequence = slot.shows sequence := by
  unfold OwnedSlot.withOwner
  split <;> rfl

variable {a b : LiveMailboxSet}

theorem LiveMailboxSet.SameMailboxes.inspect (same : a.SameMailboxes b)
    (identity sequence : UInt64) :
    b.inspect identity sequence =
      (a.inspect identity sequence).map (OwnedSlot.withOwner b.owner) := by
  have found : b.findMailbox identity =
      (a.findMailbox identity).map (LiveMailbox.withOwner b.owner) := by
    rw [LiveMailboxSet.findMailbox, same, find?_map]
    rfl
  simp only [LiveMailboxSet.inspect, found]
  split
  · rfl
  · cases a.findMailbox identity with
    | none => rfl
    | some mailbox =>
      simp only [Option.map_some, Option.bind_some, LiveMailbox.withOwner]
      split
      · rfl
      · rw [find?_map]
        congr 2
        funext slot
        exact OwnedSlot.shows_withOwner b.owner sequence slot

/-- A slot that an inspection call looks at is not free, so it carries its set's owner. -/
theorem LiveMailboxSet.inspect_not_free {set : LiveMailboxSet} {identity sequence : UInt64}
    {slot : OwnedSlot} (h : set.inspect identity sequence = some slot) : slot.state ≠ .free := by
  unfold LiveMailboxSet.inspect at h
  split at h
  · exact absurd h (by simp)
  · obtain ⟨mailbox, -, looked⟩ := Option.bind_eq_some_iff.mp h
    split at looked
    · exact absurd looked (by simp)
    · have shown := find?_some looked
      simp only [OwnedSlot.shows, Bool.and_eq_true, bne_iff_ne] at shown
      exact shown.1.1

theorem LiveMailboxSet.SameMailboxes.inspected (same : a.SameMailboxes b) {ρ : Type*}
    (f g : OwnedSlot → ρ) (agree : ∀ slot, slot.state ≠ .free → f (slot.withOwner b.owner) = g slot)
    (identity sequence : UInt64) :
    (b.inspect identity sequence).map f = (a.inspect identity sequence).map g := by
  rw [same.inspect]
  cases looked : a.inspect identity sequence with
  | none => rfl
  | some slot => simp [agree slot (LiveMailboxSet.inspect_not_free looked)]

theorem LiveMailboxSet.SameMailboxes.occupancy (same : a.SameMailboxes b) :
    b.occupancy = a.occupancy := by
  rw [LiveMailboxSet.occupancy, same, foldl_map]
  rfl

variable {a b : LiveMailboxSet} (artifact : CheckpointArtifact)

theorem restoreCheckpointState_mailboxes (set : LiveMailboxSet) :
    (set.restoreCheckpointState artifact).mailboxes =
      zipWith (LiveMailbox.restore (set.restoreCheckpointState artifact).owner) set.mailboxes
        artifact.mailboxes := by
  unfold LiveMailboxSet.restoreCheckpointState
  cases artifact.generation <;> rfl

theorem restore_sameMailboxes (same : a.SameConfiguration b) (quiet_a : a.Quiescent)
    (quiet_b : b.Quiescent) :
    (a.restoreCheckpointState artifact).SameMailboxes (b.restoreCheckpointState artifact) := by
  rw [LiveMailboxSet.SameMailboxes, restoreCheckpointState_mailboxes,
    restoreCheckpointState_mailboxes]
  exact (restoredMailboxes _ _ _ _ _ same quiet_a.1 quiet_b.1).symm

/-- The generation that a restore makes active. -/
theorem restore_copyGeneration (set : LiveMailboxSet) :
    (set.restoreCheckpointState artifact).copyGeneration =
      artifact.generation.map
        (LiveGeneration.restore (set.restoreCheckpointState artifact).owner) := by
  unfold LiveMailboxSet.restoreCheckpointState LiveMailboxSet.copyGeneration
  cases artifact.generation <;> simp

theorem LiveGeneration.restore_withOwner (o p : LiveOwner) (generation : LiveGeneration) :
    (generation.restore o).withOwner p = generation.restore p := by
  simp [LiveGeneration.restore, OwnedGeneration.withOwner, OwnedRecord.withOwner]

/-- The commit info after a restore, where only the target can come from the set itself. -/
theorem restore_commitInfo (set : LiveMailboxSet) (quiet : set.Quiescent) :
    (set.restoreCheckpointState artifact).commitInfo =
      if 0xFFFFFFFF < (set.restoreCheckpointState artifact).occupancy then none
      else some
        { owner := (set.restoreCheckpointState artifact).owner
          survivorCount := UInt32.ofNat ((artifact.generation.map (·.records.length)).getD 0)
          generationIdentity := (artifact.generation.map (·.generationIdentity)).getD 0
          target := (artifact.generation.map (·.target)).getD set.latest.target
          committed := artifact.committed
          replaced := artifact.replaced
          missed := artifact.missed
          stopped := artifact.stopped
          stagedOccupancy := (set.restoreCheckpointState artifact).occupancy.toUInt32 } := by
  have even : (set.restoreCheckpointState artifact).inspectionVersion % 2 = 0 := by
    unfold LiveMailboxSet.restoreCheckpointState
    cases artifact.generation <;> exact quiet.2
  simp only [LiveMailboxSet.commitInfo, even, ne_eq, not_true_eq_false, false_or]
  congr 2
  unfold LiveMailboxSet.restoreCheckpointState
  cases artifact.generation <;> rfl

/-- Whatever two quiescent mailbox sets of one configuration held before, after they restore one
artifact each inspection call shows the same in both, but for the runtime and the configuration
generation that are each set's own, and but for the boundary that `commit_info` names when the
artifact has no generation. -/
theorem restore_observations (a b : LiveMailboxSet) (artifact : CheckpointArtifact)
    (same : a.SameConfiguration b) (quiet_a : a.Quiescent) (quiet_b : b.Quiescent) :
    let left := a.restoreCheckpointState artifact
    let right := b.restoreCheckpointState artifact
    (∀ identity sequence, right.recordAt identity sequence =
      (left.recordAt identity sequence).map (OwnedRecord.withOwner right.owner)) ∧
    (∀ identity sequence, right.recordStatus identity sequence =
      (left.recordStatus identity sequence).map
        (LiveControlRecordStatusInfo.withOwner right.owner)) ∧
    (∀ identity sequence size, right.copyPayload identity sequence size =
      left.copyPayload identity sequence size) ∧
    right.copyGeneration = left.copyGeneration.map (OwnedGeneration.withOwner right.owner) ∧
    right.commitInfo.map LiveControlCommitInfo.withoutTarget =
      left.commitInfo.map (fun info => (info.withOwner right.owner).withoutTarget) ∧
    (artifact.generation.isSome → right.commitInfo =
      left.commitInfo.map (LiveControlCommitInfo.withOwner right.owner)) := by
  intro left right
  have mailboxes : left.SameMailboxes right := restore_sameMailboxes artifact same quiet_a quiet_b
  have occupancy : right.occupancy = left.occupancy := mailboxes.occupancy
  have info_left : left.commitInfo = _ := restore_commitInfo artifact a quiet_a
  have info_right : right.commitInfo = _ := restore_commitInfo artifact b quiet_b
  change right.commitInfo = if 0xFFFFFFFF < right.occupancy then none else _ at info_right
  refine ⟨fun identity sequence => ?_, fun identity sequence => ?_,
    fun identity sequence size => ?_, ?_, ?_, fun published => ?_⟩
  · rw [LiveMailboxSet.recordAt, LiveMailboxSet.recordAt, Option.map_map]
    exact mailboxes.inspected _ _
      (fun slot used => by simp [OwnedSlot.withOwner, used]) identity sequence
  · rw [LiveMailboxSet.recordStatus, LiveMailboxSet.recordStatus, Option.map_map]
    exact mailboxes.inspected _ _
      (fun slot used => by
        simp [OwnedSlot.withOwner, OwnedSlot.statusInfo, OwnedRecord.withOwner, used,
          LiveControlRecordStatusInfo.withOwner]) identity sequence
  · rw [LiveMailboxSet.copyPayload, LiveMailboxSet.copyPayload, mailboxes.inspect]
    cases looked : left.inspect identity sequence with
    | none => rfl
    | some slot =>
      have used := LiveMailboxSet.inspect_not_free looked
      simp [OwnedSlot.withOwner, OwnedRecord.withOwner, used]
  · rw [restore_copyGeneration, restore_copyGeneration, Option.map_map]
    congr 1
    funext generation
    exact (generation.restore_withOwner _ _).symm
  · rw [info_left, info_right, occupancy]
    split <;> rfl
  · obtain ⟨generation, found⟩ := Option.isSome_iff_exists.mp published
    rw [info_left, info_right, occupancy]
    split
    · rfl
    · simp only [found]
      rfl

/-- A mailbox set with one mailbox of one slot, of a runtime that has restored `restores` times and
staged nothing since. -/
def idleSet (restores : UInt64) : LiveMailboxSet where
  owner := ⟨1, 1 + restores⟩
  mailboxes :=
    [{ mailboxIdentity := 1
       payloadBytesPerRecord := 1
       nextSequence := 1
       counters := ⟨0, 0, 0, 0, 0, 0, 0, 0⟩
       occupancy := 0
       reclaiming := false
       slots := [⟨.free, ⟨⟨0, 0⟩, .unset⟩, [0], 0⟩] }]
  producerNextSequences := [1]
  admissionOpen := true
  hostBoundaryStarted := false
  lastHostBoundary := 0
  rateTargetsClosed := []
  committed := 0
  replaced := 0
  missed := 0
  stopped := 0
  generations := fun _ => ⟨⟨0, 0⟩, 0, {}, []⟩
  activeGeneration := false
  hasGeneration := false
  latest := ⟨0, {}, 0⟩
  inspectionVersion := 0
  nextAction := 1

/-- The update that `publishedSet` has committed. -/
def frameFiveRecord : LiveControlUpdateRecord where
  mailboxIdentity := 1
  producerIdentity := 1
  mailboxSequence := 1
  producerSequence := 1
  payloadDigest := 0
  payloadBytes := 1
  updateKind := .scenarioParameters
  target := { kind := .hostFrame, frameIndex := 5 }

/-- The same set after an update for frame 5 was committed in a generation of this identity. -/
def publishedSet (identity : UInt64) : LiveMailboxSet :=
  { idleSet 0 with
    mailboxes :=
      [{ mailboxIdentity := 1
         payloadBytesPerRecord := 1
         nextSequence := 2
         counters := ⟨1, 0, 0, 0, 0, 0, 0, 0⟩
         occupancy := 0
         reclaiming := false
         slots := [⟨.committed, ⟨⟨1, 1⟩, frameFiveRecord⟩, [9], identity⟩] }]
    producerNextSequences := [2]
    hostBoundaryStarted := true
    lastHostBoundary := 5
    committed := 1
    generations := Function.update (idleSet 0).generations true
      ⟨⟨1, 1⟩, identity, frameFiveRecord.target, [(⟨⟨1, 1⟩, frameFiveRecord⟩, [9])]⟩
    activeGeneration := true
    hasGeneration := true
    latest := ⟨identity, frameFiveRecord.target, 1⟩
    inspectionVersion := 2
    nextAction := 4 }

/-- What `write_checkpoint_state` saves of `idleSet`. -/
def idleArtifact : CheckpointArtifact where
  generation := none
  lastHostBoundary := 0
  hostStarted := false
  admissionOpen := true
  committed := 0
  replaced := 0
  missed := 0
  stopped := 0
  nextAction := 1
  mailboxes := [⟨1, ⟨0, 0, 0, 0, 0, 0, 0, 0⟩, 0, [⟨.free, .unset, [0], 0⟩]⟩]
  producers := [1]
  rateTargets := []

theorem idle_sameConfiguration (identity : UInt64) :
    (idleSet 0).SameConfiguration (publishedSet identity) := rfl

theorem idle_quiescent (restores : UInt64) : (idleSet restores).Quiescent :=
  ⟨by simp [idleSet], rfl⟩

theorem published_quiescent (identity : UInt64) : (publishedSet identity).Quiescent :=
  ⟨by simp [publishedSet], by simp [publishedSet]⟩

theorem published_restore_observations :
    ((publishedSet 7).restoreCheckpointState idleArtifact).copyGeneration =
      ((idleSet 0).restoreCheckpointState idleArtifact).copyGeneration.map
        (OwnedGeneration.withOwner
          ((publishedSet 7).restoreCheckpointState idleArtifact).owner) :=
  (restore_observations (idleSet 0) (publishedSet 7) idleArtifact (idle_sameConfiguration 7)
    (idle_quiescent 0) (published_quiescent 7)).2.2.2.1

/-- After the restore `commit_info` of the one set still names frame 5, which the other never had; and
a set that has restored once before shows another configuration generation. -/
theorem restore_keeps_descriptor :
    (((publishedSet 7).restoreCheckpointState idleArtifact).commitInfo.map
        (·.target.frameIndex) = some 5 ∧
      ((idleSet 0).restoreCheckpointState idleArtifact).commitInfo.map
        (·.target.frameIndex) = some invalidSequence) ∧
    ((idleSet 0).restoreCheckpointState idleArtifact).commitInfo.map
        (·.owner.configurationGeneration) = some 2 ∧
      ((idleSet 1).restoreCheckpointState idleArtifact).commitInfo.map
        (·.owner.configurationGeneration) = some 3 := by
  refine ⟨⟨?_, ?_⟩, ?_, ?_⟩ <;> decide +kernel

end Noninterference

end RtRuntime
