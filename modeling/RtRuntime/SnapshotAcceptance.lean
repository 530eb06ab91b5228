import RtRuntime.RuntimeSnapshot

/-!
# Checkpoints that are restored and not replayed

`restore_checkpoint` and `replay` parse the same artifact, with bounds of their own for the number of
its records: the one counts the registered and the internal states, the other goes by the capacity
for registered states.  The two agree exactly where all records fit this capacity.
-/

namespace RtRuntime

open RegisteredState List

variable {σ : Type}

theorem CheckpointParsable.widen {artifact : List UInt8} {maxBytes maxStates wider : ℕ}
    {metadata : CheckpointMetadata} {states : List StateRecord}
    (ok : CheckpointParsable artifact maxBytes maxStates metadata states)
    (count : states.length ≤ wider) (limit : wider ≤ artifactAbsoluteMaxRecords) :
    CheckpointParsable artifact maxBytes wider metadata states :=
  { ok with count := count, stateLimit := limit }

namespace SnapshotRuntime

theorem inReplay_of_admitRestore {runtime : SnapshotRuntime σ} {checkpoint : ByteSpan}
    (admitted : runtime.admitRestore checkpoint = .ok ()) : runtime.inReplay = false := by
  simp only [admitRestore, reject_bind_eq_ok, executing, Bool.or_eq_true, not_or] at admitted
  simpa using admitted.2.2.2.2.1.2

/-- What a replay can hold against its input log, once it has taken the checkpoint. -/
def LogAtFault (runtime : SnapshotRuntime σ) (frameIndex : UInt64) (inputLog : List UInt8)
    (hasCallback : Bool) : Prop :=
  ∀ metadata, parseInputLogArtifact inputLog runtime.config.inputLogMaxBytes
      runtime.config.replayInputCapacity = .ok metadata →
    ¬ runtime.inputLogMatches metadata ∨
      metadata.recordCount ≠ 0 ∧ (metadata.firstFrameIndex ≤ frameIndex ∨ hasCallback = false)

variable {runtime restored : SnapshotRuntime σ} {checkpoint : ByteSpan} {parsed : CheckpointMetadata}

/-- What a restore has established of the artifact before it looks at the records. -/
structure Identified (runtime : SnapshotRuntime σ) (checkpoint : List UInt8)
    (parsed : CheckpointMetadata) : Prop where
  parse : parseCheckpointArtifact checkpoint runtime.config.snapshotMaxBytes
    runtime.checkpointStateCount = .ok parsed
  identity : runtime.checkpointMatches parsed
  stateCount : parsed.stateCount.toNat = runtime.checkpointStateCount

theorem identifyCheckpoint_identified {checkpoint : List UInt8}
    (ok : runtime.identifyCheckpoint checkpoint = .ok parsed) :
    runtime.Identified checkpoint parsed := by
  simp only [identifyCheckpoint, bind_eq_ok, reject_eq_ok, not_not, exists_const] at ok
  obtain ⟨found, accepted, matching, made⟩ := ok
  cases made
  cases parse : parseCheckpointArtifact checkpoint runtime.config.snapshotMaxBytes
      runtime.checkpointStateCount with
  | error status =>
    rw [parse] at accepted
    cases accepted
  | ok result =>
    rw [parse] at accepted
    cases accepted
    exact ⟨parse, matching.1, matching.2⟩

/-- The checkpoint is parsed with the capacity for states as well, if and only if the registered and
the internal states fit it. -/
theorem Identified.parse_capacity {checkpoint : List UInt8}
    (found : runtime.Identified checkpoint parsed)
    (valid : validateConfig runtime.config = .ok ()) :
    parseCheckpointArtifact checkpoint runtime.config.snapshotMaxBytes
        runtime.config.stateCapacity = .ok parsed ↔
      runtime.checkpointStateCount ≤ runtime.config.stateCapacity := by
  rw [parseCheckpointArtifact_eq_ok, ← found.stateCount]
  constructor
  · rintro ⟨states, parsable⟩
    rw [parsable.stateCount]
    exact parsable.count
  · intro fits
    obtain ⟨states, parsable⟩ := parseCheckpointArtifact_eq_ok.mp found.parse
    rw [parsable.stateCount] at fits
    exact ⟨states, parsable.widen fits (stateCapacity_le valid)⟩

theorem applyInternal_inReplay {rebuilt : SnapshotRuntime σ} {records : List (InternalKind × List UInt8)}
    (ok : records.foldlM applyInternal runtime = .ok rebuilt) :
    rebuilt.inReplay = runtime.inReplay := by
  refine foldlM_invariant (P := fun _ after => after.inReplay = runtime.inReplay) ok rfl ?_
  intro done record rest before after _ kept applied
  simp only [applyInternal] at applied
  split at applied
  · cases applied
    exact kept
  · cases applied

theorem restoreCheckpoint_identified
    (ok : runtime.restoreCheckpoint checkpoint = .ok (parsed, restored)) :
    restored.inReplay = false ∧ runtime.Identified checkpoint.bytes parsed := by
  simp only [restoreCheckpoint, examineCheckpoint, bind_eq_ok] at ok
  obtain ⟨_, ⟨_, admitted, _, identified, _, _, _, _, examined⟩, rebuilt, rebuiltOk, made⟩ := ok
  cases examined
  obtain ⟨rfl, rfl⟩ := Prod.mk.inj (Except.ok.inj made)
  exact ⟨(applyInternal_inReplay rebuiltOk).trans (inReplay_of_admitRestore admitted),
    identifyCheckpoint_identified identified⟩

end SnapshotRuntime

/-- A runtime with one registered state and live controls whose state is a list of bytes; `tail` is
the byte after the terminator of its workload identifier. -/
def oneStateRuntime (tail : UInt8) (stateCapacity : ℕ) (bytes internal : List UInt8) :
    SnapshotRuntime (List UInt8) where
  config := { workloadId := identifierWithTail tail, stateCapacity := stateCapacity }
  state := .running
  policySet := fun kind => kind = .liveControl
  codec := fun _ =>
    { sync := some
      validate := fun _ payload => payload ≠ []
      apply := fun _ payload => (payload, true) }
  buildId := identifierWithTail 0
  states := [⟨identifierWithTail 0, 1, ⟨4096, bytes⟩⟩]
  internal := internal

/-- What it writes as its checkpoint, and as an input log of one record. -/
def oneStateCheckpoint (tail : UInt8) (stateCapacity : ℕ) : ArtifactWrite :=
  ((oneStateRuntime tail stateCapacity [7, 8] [9]).writeCheckpoint 3 ⟨8192, List.replicate 435 0⟩).1

def oneRecordLog (tail : UInt8) (stateCapacity : ℕ) : ArtifactWrite :=
  ((oneStateRuntime tail stateCapacity [7, 8] [9]).writeInputLog ⟨0, []⟩
    [⟨⟨{ frameIndex := 4 }, 1, [5]⟩, 0⟩] ⟨8192, List.replicate 241 0⟩).1

open SnapshotRuntime ReplayMachine in
/-- A checkpoint that `restore_checkpoint` accepts passes the checks that `replay` makes of it, with
an admitted replay failing before its first frame for its input log alone, exactly if the registered
and the internal states together fit the capacity. -/
theorem restorable_checkpoint_replayed (runtime : SnapshotRuntime σ)
    (valid : validateConfig runtime.config = .ok ()) (checkpoint : ByteSpan)
    (parsed : CheckpointMetadata) (restored : SnapshotRuntime σ)
    (accepted : runtime.restoreCheckpoint checkpoint = .ok (parsed, restored)) :
    ((parseCheckpointArtifact checkpoint.bytes runtime.config.snapshotMaxBytes
        runtime.config.stateCapacity = .ok parsed ∧ runtime.checkpointMatches parsed) ∧
      ∀ inputLog hasCallback failure, runtime.admitReplay inputLog = .ok () →
        prepareReplay runtime checkpoint inputLog hasCallback = .error failure →
        runtime.LogAtFault parsed.checkpointFrameIndex inputLog.bytes hasCallback) ↔
      runtime.checkpointStateCount ≤ runtime.config.stateCapacity := by
  obtain ⟨idle, found⟩ := restoreCheckpoint_identified accepted
  have capacity := found.parse_capacity valid
  refine ⟨fun taken => capacity.mp taken.1.1, fun fits => ?_⟩
  have parse := capacity.mpr fits
  refine ⟨⟨parse, found.identity⟩, fun inputLog hasCallback failure admitted failed => ?_⟩
  intro metadata logParsed
  by_contra faultless
  simp only [not_or, not_not, not_and, Bool.not_eq_false] at faultless
  obtain ⟨matching, later⟩ := faultless
  -- then nothing stops the replay before its loop
  have identified : runtime.identifyReplay checkpoint.bytes inputLog.bytes =
      .ok (parsed, metadata) := by
    simp only [identifyReplay, parse, logParsed, Except.mapError, bind, Except.bind]
    rw [reject, if_neg]
    · rfl
    · push Not
      exact ⟨⟨found.identity, matching⟩, fun nonempty => (later nonempty).1⟩
  have callback : ¬ (metadata.recordCount ≠ 0 ∧ !hasCallback) := by
    rintro ⟨nonempty, missing⟩
    simp [(later nonempty).2] at missing
  have prepared : prepareReplay runtime checkpoint inputLog hasCallback =
      .ok (parsed, metadata, restored) := by
    simp only [prepareReplay, admitted, identified, accepted, bind, Except.bind, reject, callback,
      idle, if_false]
    rfl
  rw [prepared] at failed
  cases failed

theorem restorable_checkpoint_replayed_one_state :
    ∃ parsed restored,
      (oneStateRuntime 0 2 [0, 0] [4]).restoreCheckpoint ⟨0, (oneStateCheckpoint 0 2).artifact⟩ =
        .ok (parsed, restored) ∧
      (oneStateRuntime 0 2 [0, 0] [4]).checkpointMatches parsed := by
  have ok : ((oneStateRuntime 0 2 [0, 0] [4]).restoreCheckpoint
      ⟨0, (oneStateCheckpoint 0 2).artifact⟩).isOk := by decide +kernel
  cases accepted : (oneStateRuntime 0 2 [0, 0] [4]).restoreCheckpoint
      ⟨0, (oneStateCheckpoint 0 2).artifact⟩ with
  | error failure =>
    rw [accepted] at ok
    cases ok
  | ok found =>
    have taken := (restorable_checkpoint_replayed _ (by decide +kernel) _ _ _ accepted).mpr
      (by decide +kernel)
    exact ⟨found.1, found.2, rfl, taken.1.2⟩

/-- A runtime whose one registered state fills the capacity writes a checkpoint with a second
record, for its live controls.  It restores this checkpoint and does not replay it. -/
theorem full_capacity_not_replayed :
    let runtime := oneStateRuntime 0 1 [0, 0] [4]
    let checkpoint : ByteSpan := ⟨0, (oneStateCheckpoint 0 1).artifact⟩
    let inputLog : ByteSpan := ⟨0, (oneRecordLog 0 1).artifact⟩
    let replayed := ReplayMachine.replay
      ⟨fun runtime _ => (runtime, true), fun runtime _ => (runtime, .ok)⟩ runtime checkpoint
      inputLog true
    runtime.states.length ≤ runtime.config.stateCapacity ∧
      validateConfig runtime.config = .ok () ∧ (oneStateCheckpoint 0 1).status = .ok ∧
      (runtime.restoreCheckpoint checkpoint).status = .ok ∧
      (oneRecordLog 0 1).status = .ok ∧ (runtime.admitReplay inputLog).status = .ok ∧
      replayed.status = .invalidArtifact ∧
      replayed.runtime.error = "checkpoint validation failed before replay" := by
  decide +kernel

end RtRuntime
