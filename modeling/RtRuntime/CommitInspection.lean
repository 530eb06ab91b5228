import RtRuntime.LiveCheckpoint

/-!
# Commit inspection beside the host

`commit_info` may be called by any thread while the host closes boundaries, rolls a step back or
restores a checkpoint.  The identity, the target and the survivor count of the latest generation are
separate atomic words; the reader loads them between two loads of `inspection_version` and gives up
if that was odd or has moved.  The model takes one load or store at a time.

Closing a boundary counts the version before and after its stores.  The rollback in
`settle_step_transaction` and `restore_checkpoint_state` store the same words and leave the version
alone, so a reader that they overtake cannot tell.
-/

namespace RtRuntime

open Function

section Words

/-- The atomic words that describe the latest generation. -/
inductive LatestWord
  | generationIdentity
  | frameIndex
  | rateSequence
  | referenceIndex
  | domainIndex
  | phaseIndex
  | substep
  | survivorCount
  | targetKind
  deriving DecidableEq, Repr

def LatestWord.Value : LatestWord → Type
  | .generationIdentity | .frameIndex | .rateSequence => UInt64
  | .referenceIndex | .domainIndex | .phaseIndex | .substep | .survivorCount => UInt32
  | .targetKind => LiveControlTargetKind

def LatestGeneration.words (g : LatestGeneration) : (w : LatestWord) → w.Value
  | .generationIdentity => g.generationIdentity
  | .frameIndex => g.target.frameIndex
  | .rateSequence => g.target.rateReleaseSequence
  | .referenceIndex => g.target.referenceReleaseIndex
  | .domainIndex => g.target.rateDomainRegistrationIndex
  | .phaseIndex => g.target.phaseIndex
  | .substep => g.target.rateSubstepOrdinal
  | .survivorCount => g.survivorCount
  | .targetKind => g.target.kind

def LatestGeneration.ofWords (words : (w : LatestWord) → w.Value) : LatestGeneration where
  generationIdentity := words .generationIdentity
  target :=
    { kind := words .targetKind
      frameIndex := words .frameIndex
      rateReleaseSequence := words .rateSequence
      referenceReleaseIndex := words .referenceIndex
      rateDomainRegistrationIndex := words .domainIndex
      phaseIndex := words .phaseIndex
      rateSubstepOrdinal := words .substep }
  survivorCount := words .survivorCount

/-- The order in which a publication, a rollback and a restored generation store the words. -/
def storeOrder : List LatestWord :=
  [.generationIdentity, .frameIndex, .rateSequence, .referenceIndex, .domainIndex, .phaseIndex,
    .substep, .survivorCount, .targetKind]

/-- The order in which `commit_info` loads them. -/
def loadOrder : List LatestWord :=
  [.generationIdentity, .survivorCount, .targetKind, .frameIndex, .rateSequence, .referenceIndex,
    .domainIndex, .phaseIndex, .substep]

theorem mem_storeOrder (w : LatestWord) : w ∈ storeOrder := by cases w <;> decide

theorem mem_loadOrder (w : LatestWord) : w ∈ loadOrder := by cases w <;> decide

/-- What the words say of the active generation, and of there being none. -/
def latestOf (current : Option LatestGeneration) : LatestGeneration := current.getD ⟨0, {}, 0⟩

/-- The counters that `commit_info` loads after the words. -/
inductive CommitCounter
  | committed
  | replaced
  | missed
  | stopped
  | occupancy (mailbox : ℕ)
  deriving DecidableEq, Repr

def counterOrder (mailboxes : ℕ) : List CommitCounter :=
  [.committed, .replaced, .missed, .stopped] ++ (List.range mailboxes).map .occupancy

end Words

section Machine

/-- Where the host stands. -/
inductive LatestWriter
  | idle
  | closing
  /-- The words `left` are still to be stored; a close counts the version when it is done. -/
  | storing (source : LatestGeneration) (left : List LatestWord) (versioned : Bool)
  deriving DecidableEq, Repr

inductive CommitReader
  | idle
  | reading (before : ℕ) (owner : LiveOwner) (left : List LatestWord)
      (counters : List CommitCounter) (candidate : (w : LatestWord) → w.Value)
      (counts : CommitCounter → UInt64)
  | returned (info : Option LiveControlCommitInfo)

def CommitReader.inCall : CommitReader → Bool
  | .reading .. => true
  | _ => false

structure CommitInspection (τ : Type*) where
  owner : LiveOwner
  /-- How often `inspection_version` was counted up; what is loaded is this modulo `2 ^ 64`. -/
  version : ℕ
  latest : (w : LatestWord) → w.Value
  counters : CommitCounter → UInt64
  /-- The generation that `active_view` shows. -/
  current : Option LatestGeneration
  /-- The generation that an open step transaction has saved. -/
  entry : Option (Option LatestGeneration)
  writer : LatestWriter
  reader : τ → CommitReader

def CommitInspection.initial {τ : Type*} (owner : LiveOwner) : CommitInspection τ where
  owner := owner
  version := 0
  latest := (latestOf none).words
  counters := fun _ => 0
  current := none
  entry := none
  writer := .idle
  reader := fun _ => .idle

inductive InspectionAction (τ : Type*)
  | beginClose
  /-- A close without survivors, or one that a replay refuses. -/
  | closeEmpty
  | publish (generation : LatestGeneration)
  | store
  | endStores
  | beginStep
  | settle (success : Bool)
  | restore (generation : Option LatestGeneration)
  /-- Any thread moves a counter. -/
  | count (counter : CommitCounter) (value : UInt64)
  | call (t : τ)
  | load (t : τ)
  | finish (t : τ)

variable {τ : Type*} [DecidableEq τ]

namespace CommitInspection

variable (s : CommitInspection τ)

def loadVersion : ℕ := s.version % 2 ^ 64

def setReader (t : τ) (reader : CommitReader) : CommitInspection τ :=
  { s with reader := Function.update s.reader t reader }

/-- The occupancies summed as `commit_info` does. -/
def occupancy (mailboxes : ℕ) (counts : CommitCounter → UInt64) : UInt64 :=
  (List.range mailboxes).foldl (fun sum mailbox => sum + counts (.occupancy mailbox)) 0

/-- The last part of `commit_info`, when everything is loaded. -/
def result (mailboxes before : ℕ) (owner : LiveOwner)
    (candidate : (w : LatestWord) → w.Value) (counts : CommitCounter → UInt64) :
    Option LiveControlCommitInfo :=
  if 0xFFFFFFFF < occupancy mailboxes counts then none
  else if before ≠ s.loadVersion ∨ s.loadVersion % 2 ≠ 0 then none
  else
    let latest := LatestGeneration.ofWords candidate
    some
      { owner := owner
        survivorCount := latest.survivorCount
        generationIdentity := latest.generationIdentity
        target := latest.target
        committed := counts .committed
        replaced := counts .replaced
        missed := counts .missed
        stopped := counts .stopped
        stagedOccupancy := (occupancy mailboxes counts).toUInt32 }

/-- The host's moves. -/
def hostStep : InspectionAction τ → Option (CommitInspection τ)
  | .beginClose =>
    if s.writer = .idle then some { s with version := s.version + 1, writer := .closing } else none
  | .closeEmpty =>
    if s.writer = .closing then some { s with version := s.version + 1, writer := .idle } else none
  | .publish g =>
    if s.writer = .closing then
      some { s with current := some g, writer := .storing g storeOrder true }
    else none
  | .store =>
    match s.writer with
    | .storing source (w :: left) versioned =>
      some { s with
        latest := copyWord source.words s.latest w, writer := .storing source left versioned }
    | _ => none
  | .endStores =>
    match s.writer with
    | .storing _ [] versioned =>
      some { s with version := if versioned then s.version + 1 else s.version, writer := .idle }
    | _ => none
  | .beginStep =>
    if s.writer = .idle ∧ s.entry = none then some { s with entry := some s.current } else none
  | .settle success =>
    match s.writer, s.entry with
    | .idle, some entry =>
      if success then some { s with entry := none }
      else some { s with
        current := entry, entry := none, writer := .storing (latestOf entry) storeOrder false }
    | _, _ => none
  | .restore g =>
    if s.writer = .idle ∧ s.entry = none then
      some { s with
        owner :=
          { s.owner with configurationGeneration := s.owner.configurationGeneration + 1 }
        current := g
        -- without a generation only these two words are stored
        writer := .storing (latestOf g)
          (if g.isSome then storeOrder else [.generationIdentity, .survivorCount]) false }
    else none
  | _ => none

def step (mailboxes : ℕ) (s : CommitInspection τ) :
    InspectionAction τ → Option (CommitInspection τ)
  | .count counter value => some { s with counters := Function.update s.counters counter value }
  | .call t =>
    if (s.reader t).inCall then none
    else if s.loadVersion % 2 ≠ 0 then some (s.setReader t (.returned none))
    else some (s.setReader t
      (.reading s.loadVersion s.owner loadOrder (counterOrder mailboxes) (latestOf none).words
        fun _ => 0))
  | .load t =>
    match s.reader t with
    | .reading before owner (w :: left) counters candidate counts =>
      some (s.setReader t
        (.reading before owner left counters (copyWord s.latest candidate w) counts))
    | .reading before owner [] (c :: counters) candidate counts =>
      some (s.setReader t
        (.reading before owner [] counters candidate (copyWord s.counters counts c)))
    | _ => none
  | .finish t =>
    match s.reader t with
    | .reading before owner [] [] candidate counts =>
      some (s.setReader t (.returned (s.result mailboxes before owner candidate counts)))
    | _ => none
  | action => s.hostStep action

end CommitInspection

end Machine

section Coherence

variable {τ : Type*} {s u : CommitInspection τ} {a : InspectionAction τ}

/-- The writer has counted the version once and will count it again. -/
def LatestWriter.counted : LatestWriter → Bool
  | .idle => false
  | .closing => true
  | .storing _ _ versioned => versioned

/-- The writer stores words that no version guards. -/
def LatestWriter.unversioned : LatestWriter → Bool
  | .storing _ _ versioned => !versioned
  | _ => false

def LatestWriter.left : LatestWriter → List LatestWord
  | .storing _ left _ => left
  | _ => []

/-- No call of `commit_info` overlaps a rollback or a restore, and a restore without a generation
finds no target to leave behind. -/
def Undisturbed (s : CommitInspection τ) : InspectionAction τ → Prop
  | .settle false => ∀ t, (s.reader t).inCall = false
  | .restore g =>
    (∀ t, (s.reader t).inCall = false) ∧
      (g = none → (LatestGeneration.ofWords s.latest).target = {})
  | .call _ => s.writer.unversioned = false
  | _ => True

instance decidableUndisturbed [Fintype τ] (s : CommitInspection τ) :
    (a : InspectionAction τ) → Decidable (Undisturbed s a)
  | .settle false => inferInstanceAs (Decidable (∀ t, (s.reader t).inCall = false))
  | .restore g =>
    inferInstanceAs (Decidable ((∀ t, (s.reader t).inCall = false) ∧
      (g = none → (LatestGeneration.ofWords s.latest).target = {})))
  | .call _ => inferInstanceAs (Decidable (s.writer.unversioned = false))
  | .settle true | .beginClose | .closeEmpty | .publish _ | .store | .endStores | .beginStep
  | .count _ _ | .load _ | .finish _ => isTrue trivial

namespace CommitInspection

/-- As long as the version has not moved, what a reader has loaded is what the words hold. -/
def ReaderKeeps (s : CommitInspection τ) : CommitReader → Prop
  | .reading before _ left _ candidate _ =>
    before ≤ s.version ∧ before % 2 = 0 ∧ (before = s.version → AgreeOff left candidate s.latest)
  | _ => True

structure Coherent (s : CommitInspection τ) : Prop where
  parity : s.version % 2 = if s.writer.counted then 1 else 0
  source : ∀ source left versioned, s.writer = .storing source left versioned →
    source = latestOf s.current
  words : AgreeOff s.writer.left s.latest (latestOf s.current).words
  readers : ∀ t, s.ReaderKeeps (s.reader t)
  apart : s.writer.unversioned = true → ∀ t, (s.reader t).inCall = false

theorem coherent_initial (owner : LiveOwner) : Coherent (initial owner : CommitInspection τ) where
  parity := rfl
  source := by simp [initial]
  words := fun _ _ => rfl
  readers := fun _ => trivial
  apart := by simp [initial, LatestWriter.unversioned]

/-- A reader keeps what it has if the words only change under an odd version or with no reader in
its call. -/
theorem ReaderKeeps.frame {r : CommitReader} (kept : s.ReaderKeeps r)
    (le : s.version ≤ u.version)
    (same : u.version = s.version → u.version % 2 = 0 → r.inCall = true → u.latest = s.latest) :
    u.ReaderKeeps r := by
  cases r with
  | reading before owner left counters candidate counts =>
    obtain ⟨before_le, even, agree⟩ := kept
    refine ⟨by omega, even, fun eq => ?_⟩
    have unmoved : u.version = s.version := by omega
    rw [same unmoved (by omega) rfl]
    exact agree (by omega)
  | _ => trivial

/-- The writer counts the version, or ends its stores, with no word left to store. -/
theorem Coherent.counts (h : Coherent s) (stored : s.writer.left = []) {version : ℕ}
    {writer : LatestWriter} (between : writer = .idle ∨ writer = .closing)
    (le : s.version ≤ version) (parity : version % 2 = if writer.counted then 1 else 0) :
    Coherent { s with version := version, writer := writer } where
  parity := parity
  source := by rcases between with rfl | rfl <;> simp
  words := by
    have words := h.words
    rw [stored] at words
    rcases between with rfl | rfl <;> exact words
  readers := fun t => (h.readers t).frame le fun _ _ _ => rfl
  apart := by rcases between with rfl | rfl <;> simp [LatestWriter.unversioned]

/-- A rollback or a restore begins: no reader is in its call. -/
theorem Coherent.unversioned (h : Coherent s) (idle : s.writer = .idle)
    (quiet : ∀ t, (s.reader t).inCall = false) (owner : LiveOwner) (g : Option LatestGeneration)
    {left : List LatestWord} (agree : AgreeOff left s.latest (latestOf g).words) :
    Coherent { s with
      owner := owner
      current := g
      entry := none
      writer := .storing (latestOf g) left false } where
  parity := by simpa [idle, LatestWriter.counted] using h.parity
  source := by
    rintro source left versioned ⟨⟩
    rfl
  words := agree
  readers := fun t => (h.readers t).frame le_rfl fun _ _ _ => rfl
  apart := fun _ => quiet

theorem Coherent.hostStep (h : Coherent s) (met : Undisturbed s a)
    (moved : s.hostStep a = some u) : Coherent u := by
  have parity := h.parity
  cases a with
  | beginClose =>
    obtain ⟨idle, ⟨⟩⟩ := Option.ite_none_right_eq_some.mp moved
    simp only [idle, LatestWriter.counted] at parity
    refine h.counts (by rw [idle]; rfl) (.inr rfl) (Nat.le_succ _) ?_
    simp [LatestWriter.counted] at parity ⊢
    omega
  | closeEmpty =>
    obtain ⟨closing, ⟨⟩⟩ := Option.ite_none_right_eq_some.mp moved
    simp only [closing, LatestWriter.counted] at parity
    refine h.counts (by rw [closing]; rfl) (.inl rfl) (Nat.le_succ _) ?_
    simp [LatestWriter.counted] at parity ⊢
    omega
  | publish g =>
    obtain ⟨closing, ⟨⟩⟩ := Option.ite_none_right_eq_some.mp moved
    rw [closing] at parity
    refine ⟨parity, ?_, .of_forall_mem mem_storeOrder, ?_, by rintro ⟨⟩⟩
    · rintro source left versioned ⟨⟩
      rfl
    · exact fun t => (h.readers t).frame le_rfl fun _ _ _ => rfl
  | store =>
    simp only [CommitInspection.hostStep] at moved
    split at moved
    · rename_i source w left versioned storing
      cases moved
      obtain rfl := h.source _ _ _ storing
      rw [storing] at parity
      have words := h.words
      rw [storing] at words
      refine ⟨parity, ?_, words.copyWord, fun t => ?_, fun unversioned => ?_⟩
      · rintro source left versioned ⟨⟩
        rfl
      · -- under a close the version is odd, and otherwise no reader is in its call
        refine (h.readers t).frame le_rfl fun _ even called => ?_
        cases versioned with
        | true =>
          simp only [LatestWriter.counted, if_true] at parity
          exact absurd even (by simp [parity])
        | false =>
          have quiet := h.apart (by rw [storing]; rfl) t
          exact absurd called (by simp [quiet])
      · exact h.apart (by rw [storing]; exact unversioned)
    · cases moved
  | endStores =>
    simp only [CommitInspection.hostStep] at moved
    split at moved
    · rename_i source versioned storing
      cases moved
      rw [storing] at parity
      refine h.counts (by rw [storing]; rfl) (.inl rfl) (by split <;> omega) ?_
      cases versioned <;> simp [LatestWriter.counted] at parity ⊢ <;> omega
    · cases moved
  | beginStep =>
    obtain ⟨-, ⟨⟩⟩ := Option.ite_none_right_eq_some.mp moved
    exact { h with }
  | settle success =>
    simp only [CommitInspection.hostStep] at moved
    split at moved
    · rename_i entry idle saved
      cases success with
      | true =>
        cases moved
        exact { h with }
      | false =>
        cases moved
        exact h.unversioned idle met s.owner entry (.of_forall_mem mem_storeOrder)
    · cases moved
  | restore g =>
    obtain ⟨⟨idle, closed⟩, ⟨⟩⟩ := Option.ite_none_right_eq_some.mp moved
    obtain ⟨quiet, cleared⟩ := met
    have agree : AgreeOff (if g.isSome then storeOrder else [.generationIdentity, .survivorCount])
        s.latest (latestOf g).words := by
      cases g with
      | some g => exact .of_forall_mem mem_storeOrder
      | none =>
        have target := cleared rfl
        intro w outside
        cases w with
        | generationIdentity | survivorCount => exact absurd outside (by decide)
        | targetKind => exact congrArg (·.kind) target
        | frameIndex => exact congrArg (·.frameIndex) target
        | rateSequence => exact congrArg (·.rateReleaseSequence) target
        | referenceIndex => exact congrArg (·.referenceReleaseIndex) target
        | domainIndex => exact congrArg (·.rateDomainRegistrationIndex) target
        | phaseIndex => exact congrArg (·.phaseIndex) target
        | substep => exact congrArg (·.rateSubstepOrdinal) target
    have begun := h.unversioned idle quiet
      { s.owner with configurationGeneration := s.owner.configurationGeneration + 1 } g agree
    rwa [← closed] at begun
  | _ => cases moved

theorem hostStep_version_le (moved : s.hostStep a = some u) : s.version ≤ u.version := by
  unfold CommitInspection.hostStep at moved
  split at moved <;> (try split at moved) <;> (try split at moved) <;> cases moved <;>
    first | exact le_rfl | exact Nat.le_succ _

/-- Beside a reader in its call no unguarded store is made. -/
theorem Coherent.guarded (h : Coherent s) {t : τ} (inside : (s.reader t).inCall = true) :
    s.writer.unversioned = false := by
  by_contra unversioned
  have quiet := h.apart (by simpa using unversioned) t
  simp [quiet] at inside

variable [DecidableEq τ]

theorem setReader_self {t : τ} {reader : CommitReader} : (s.setReader t reader).reader t = reader :=
  update_self ..

/-- A reader moves on with what keeps its part of the invariant. -/
theorem Coherent.setReader (h : Coherent s) {t : τ} {reader : CommitReader}
    (kept : s.ReaderKeeps reader)
    (called : reader.inCall = true → s.writer.unversioned = false) :
    Coherent (s.setReader t reader) := by
  refine ⟨h.parity, h.source, h.words, ?_, fun unversioned => ?_⟩
  · exact (forall_update_iff s.reader fun _ => s.ReaderKeeps).mpr ⟨kept, fun v _ => h.readers v⟩
  · refine (forall_update_iff s.reader fun _ r => r.inCall = false).mpr
      ⟨?_, fun v _ => h.apart unversioned v⟩
    by_contra inside
    have guarded := called (by simpa using inside)
    exact absurd unversioned (by simp [CommitInspection.setReader, guarded])

theorem Coherent.step {mailboxes : ℕ} (h : Coherent s) (met : Undisturbed s a)
    (bound : s.version < 2 ^ 64) (moved : s.step mailboxes a = some u) : Coherent u := by
  have loaded : s.loadVersion = s.version := Nat.mod_eq_of_lt bound
  cases a with
  | count counter value =>
    cases moved
    exact { h with }
  | call t =>
    simp only [CommitInspection.step, loaded] at moved
    split at moved
    · cases moved
    · split at moved
      · cases moved
        exact h.setReader trivial (by rintro ⟨⟩)
      · rename_i even
        cases moved
        refine h.setReader ⟨le_rfl, not_not.mp even, fun _ => ?_⟩ fun _ => met
        exact .of_forall_mem mem_loadOrder
  | load t =>
    have kept := h.readers t
    have guarded := h.guarded (t := t)
    simp only [CommitInspection.step] at moved
    split at moved
    · rename_i reading
      rw [reading] at kept guarded
      obtain ⟨le, even, agree⟩ := kept
      cases moved
      exact h.setReader ⟨le, even, fun eq => (agree eq).copyWord⟩ guarded
    · rename_i reading
      rw [reading] at kept guarded
      cases moved
      exact h.setReader kept guarded
    · cases moved
  | finish t =>
    simp only [CommitInspection.step] at moved
    split at moved
    · cases moved
      exact h.setReader trivial (by rintro ⟨⟩)
    · cases moved
  | _ => exact h.hostStep met moved

theorem step_version_le {mailboxes : ℕ} (moved : s.step mailboxes a = some u) :
    s.version ≤ u.version := by
  unfold CommitInspection.step at moved
  split at moved
  case h_5 => exact hostStep_version_le moved
  all_goals
    (try split at moved) <;> (try split at moved) <;> cases moved <;> exact le_rfl

/-- Every state of an undisturbed run is coherent, up to `2 ^ 64` counts of the version. -/
theorem coherent_of_run {mailboxes : ℕ} {owner : LiveOwner} {actions : List (InspectionAction τ)}
    (ran : runActions (step mailboxes) (initial owner) actions = some s)
    (quiet : RunMeets (step mailboxes) Undisturbed (initial owner) actions)
    (bound : s.version < 2 ^ 64) : Coherent s := by
  refine RunMeets.invariant (I := fun s => s.version < 2 ^ 64 → Coherent s) ?_
    (fun _ => coherent_initial owner) quiet ran bound
  intro s a u kept met moved bound
  have before : s.version < 2 ^ 64 := (step_version_le moved).trans_lt bound
  exact (kept before).step met before moved

end CommitInspection

variable [DecidableEq τ]

/-- The part of a commit info that the words of the latest generation give. -/
def LiveControlCommitInfo.latest (info : LiveControlCommitInfo) : LatestGeneration :=
  ⟨info.generationIdentity, info.target, info.survivorCount⟩

/-- Where no call overlaps a rollback or a restore, a call of `commit_info` that succeeds returns
the identity, the target and the survivor count of one generation: of the one that is current when
the call ends. -/
theorem commit_info_current {mailboxes : ℕ} {owner : LiveOwner}
    {actions : List (InspectionAction τ)} {t : τ} {info : LiveControlCommitInfo}
    (ran : runActions (CommitInspection.step mailboxes) (.initial owner) actions = some s)
    (quiet : RunMeets (CommitInspection.step mailboxes) Undisturbed (.initial owner) actions)
    (bound : s.version < 2 ^ 64) (returns : s.step mailboxes (.finish t) = some u)
    (success : u.reader t = .returned (some info)) :
    info.latest = latestOf s.current := by
  have h := CommitInspection.coherent_of_run ran quiet bound
  have kept := h.readers t
  have guarded := h.guarded (t := t)
  simp only [CommitInspection.step] at returns
  split at returns
  · rename_i before owner candidate counts reading
    rw [reading] at kept guarded
    obtain ⟨-, even, agree⟩ := kept
    cases returns
    have result := CommitReader.returned.inj (CommitInspection.setReader_self.symm.trans success)
    unfold CommitInspection.result at result
    split at result
    · cases result
    split at result
    · cases result
    rename_i unmoved
    cases result
    have same : before = s.version := by
      rw [CommitInspection.loadVersion, Nat.mod_eq_of_lt bound] at unmoved
      tauto
    -- the version is even and no unguarded store is under way, so all the words are in place
    have stored : s.writer.left = [] := by
      have parity := h.parity
      have unguarded := guarded rfl
      rw [← same, even] at parity
      cases writer : s.writer with
      | storing source left versioned =>
        cases versioned <;> simp [writer, LatestWriter.counted, LatestWriter.unversioned] at *
      | _ => rfl
    have words := h.words
    rw [stored] at words
    have loaded : candidate = (latestOf s.current).words := (agree same).eq.trans words.eq
    subst loaded
    rfl
  · cases returns

/-- One boundary closed with the generation that it publishes. -/
def closeWith (g : LatestGeneration) : List (InspectionAction Unit) :=
  [.beginClose, .publish g] ++ List.replicate 9 .store ++ [.endStores]

/-- Two generations, of one and of two survivors. -/
def frameFive : LatestGeneration := ⟨1, { frameIndex := 5 }, 1⟩

def frameSix : LatestGeneration := ⟨2, { frameIndex := 6 }, 2⟩

/-- A whole call with one mailbox, up to its last load. -/
def wholeCall : List (InspectionAction Unit) := .call () :: List.replicate 14 (.load ())

theorem commit_info_current_frameSix :
    ∃ s u : CommitInspection Unit, ∃ info,
      runActions (CommitInspection.step 1) (.initial ⟨1, 1⟩)
        (closeWith frameFive ++ closeWith frameSix ++ wholeCall) = some s ∧
      s.step 1 (.finish ()) = some u ∧ u.reader () = .returned (some info) ∧
      info.latest = frameSix := by
  have quiet : RunMeets (CommitInspection.step 1) Undisturbed (.initial ⟨1, 1⟩)
      (closeWith frameFive ++ closeWith frameSix ++ wholeCall) := by decide +kernel
  obtain ⟨s, u, info, ran, returns, success, bound, current⟩ :
      ∃ s u : CommitInspection Unit, ∃ info,
        runActions (CommitInspection.step 1) (.initial ⟨1, 1⟩)
          (closeWith frameFive ++ closeWith frameSix ++ wholeCall) = some s ∧
        s.step 1 (.finish ()) = some u ∧ u.reader () = .returned (some info) ∧
        s.version < 2 ^ 64 ∧ latestOf s.current = frameSix :=
    ⟨_, _, _, rfl, rfl, rfl, by decide, rfl⟩
  have single := commit_info_current ran quiet bound returns success
  exact ⟨s, u, info, ran, returns, success, single.trans current⟩

/-- A step publishes `frameSix` over `frameFive` and fails.  A reader loads the identity before the
rollback and the rest behind it. -/
def rolledBackCall : List (InspectionAction Unit) :=
  closeWith frameFive ++ [.beginStep] ++ closeWith frameSix ++
    [.call (), .load (), .settle false] ++ List.replicate 9 .store ++ [.endStores] ++
    List.replicate 13 (.load ()) ++ [.finish ()]

/-- The call succeeds with the identity of one generation, and the target and the survivor count of
another: what it returns was current at no moment. -/
theorem rollback_mixes_generations :
    ∃ s : CommitInspection Unit, ∃ info,
      runActions (CommitInspection.step 1) (.initial ⟨1, 1⟩) rolledBackCall = some s ∧
      s.reader () = .returned (some info) ∧
      info.latest = ⟨2, { frameIndex := 5 }, 1⟩ ∧
      ∀ k ≤ rolledBackCall.length, ∀ u : CommitInspection Unit,
        runActions (CommitInspection.step 1) (.initial ⟨1, 1⟩) (rolledBackCall.take k) = some u →
        info.latest ≠ latestOf u.current := by
  refine ⟨_, _, rfl, rfl, rfl, fun k le u ran same => ?_⟩
  have never : ∀ k ≤ rolledBackCall.length,
      (runActions (CommitInspection.step 1) (.initial ⟨1, 1⟩) (rolledBackCall.take k)).map
        (fun u => latestOf u.current) ≠ some ⟨2, { frameIndex := 5 }, 1⟩ := by decide +kernel
  exact never k le (by rw [ran, Option.map_some, ← same]; rfl)

end Coherence

end RtRuntime
