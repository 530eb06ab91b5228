import RtRuntime.ResidentRegions

/-!
# The stages of a region

Every region of a set is in one of six stages, and a piece of an operation moves at most one region
to another stage.  `act_effect` says which moves there are; what holds over whole runs is proved
move by move.
-/

namespace RtRuntime

open Function

/-! ## The shape of a set -/

/-- The allocation is a range of addresses. -/
def MemoryProviderAllocation.Ranged (allocation : MemoryProviderAllocation) : Prop :=
  allocation.allocationBytes ≠ 0 ∧ rangeFits allocation.allocationBase allocation.allocationBytes

/-- In these phases all acquired regions have passed `validate_allocation`. -/
def SetPhase.checks : SetPhase → Bool
  | .acquiring _ | .registering _ => true
  | _ => false

/-- What the phase of a set says about its regions. -/
structure RegionSet.Shaped (set : RegionSet) : Prop where
  registered {index : ℕ} : (set.regions index).registered → (set.regions index).acquired
  inside {index : ℕ} : (set.regions index).acquired → index < set.rows.length
  acquiring {index : ℕ} : set.phase = .acquiring index →
    ∀ later ≥ index, (set.regions later).acquired = false
  registering {index : ℕ} : set.phase = .registering index →
    (set.regions index).acquired ∧ (set.regions index).registered = false ∧
      ∀ later > index, (set.regions later).acquired = false
  provisional {index : ℕ} {status : Status} : set.phase = .registeringProvisional index status →
    index < set.rows.length ∧ ∀ later ≥ index, (set.regions later).acquired = false
  releasing {left : ℕ} : set.phase = .releasing left →
    ∀ later ≥ left, (set.regions later).acquired = false
  unregistering {index : ℕ} : set.phase = .unregistering index →
    (set.regions index).acquired ∧ ∀ later > index, (set.regions later).acquired = false
  checked {other : ℕ} : set.phase.checks → (set.regions other).acquired →
    (set.regions other).allocation.Ranged

/-- The region counts as acquired only if it is a region of the set. -/
structure RegionSet.Fitting (set : RegionSet) (index : ℕ) (region : Region) : Prop where
  registered : region.registered → region.acquired
  inside : region.acquired → index < set.rows.length

namespace RegionSet.Shaped

theorem putRegion_self (set : RegionSet) (index : ℕ) :
    set.putRegion index (set.regions index) = set := by
  simp [putRegion]

variable {set : RegionSet} {index : ℕ} {region : Region} (shaped : set.Shaped)
include shaped

/-- A region is replaced and the set goes on to a phase that suits it. -/
theorem put (fitting : set.Fitting index region) {phase : SetPhase}
    (acquiring : ∀ next, phase = .acquiring next →
      ∀ later ≥ next, (update set.regions index region later).acquired = false)
    (registering : ∀ next, phase = .registering next → next = index ∧ region.acquired ∧
      region.registered = false ∧ ∀ later > index, (set.regions later).acquired = false)
    (provisional : ∀ next status, phase = .registeringProvisional next status →
      next = index ∧ index < set.rows.length ∧ region.acquired = false ∧
        ∀ later > index, (set.regions later).acquired = false)
    (releasing : ∀ left, phase = .releasing left →
      ∀ later ≥ left, (update set.regions index region later).acquired = false)
    (unregistering : ∀ next, phase = .unregistering next → next = index ∧ region.acquired ∧
      ∀ later > index, (set.regions later).acquired = false)
    (checked : phase.checks → set.phase.checks ∧ (region.acquired → region.allocation.Ranged)) :
    RegionSet.Shaped { set.putRegion index region with phase := phase } := by
  have regions := forall_update_iff set.regions (a := index) (b := region)
  constructor
  case registered =>
    intro other
    exact (regions fun _ new => new.registered → new.acquired).mpr
      ⟨fitting.registered, fun _ _ => shaped.registered⟩ other
  case inside =>
    intro other
    exact (regions fun other new => new.acquired → other < set.rows.length).mpr
      ⟨fitting.inside, fun _ _ => shaped.inside⟩ other
  case acquiring =>
    intro next is
    exact acquiring next is
  case registering =>
    intro next is
    obtain ⟨rfl, owned, fresh, free⟩ := registering next is
    simp only [putRegion, update_self]
    refine ⟨owned, fresh, fun later above => ?_⟩
    rw [update_of_ne (by omega)]
    exact free later above
  case provisional =>
    intro next status is
    obtain ⟨rfl, inside, unowned, free⟩ := provisional next status is
    refine ⟨inside, fun later above => ?_⟩
    simp only [putRegion]
    by_cases same : later = next
    · subst same
      rwa [update_self]
    · rw [update_of_ne same]
      exact free later (by omega)
  case releasing =>
    intro left is
    exact releasing left is
  case unregistering =>
    intro next is
    obtain ⟨rfl, owned, free⟩ := unregistering next is
    simp only [putRegion, update_self]
    refine ⟨owned, fun later above => ?_⟩
    rw [update_of_ne (by omega)]
    exact free later above
  case checked =>
    intro other checks
    obtain ⟨before, new⟩ := checked checks
    exact (regions fun _ new => new.acquired → new.allocation.Ranged).mpr
      ⟨new, fun _ _ => shaped.checked before⟩ other

theorem outside {later : ℕ} (above : set.rows.length ≤ later) :
    (set.regions later).acquired = false := by
  rw [← Bool.not_eq_true]
  intro acquired
  exact absurd (shaped.inside acquired) (by omega)

/-- The set releases its regions from this one on. -/
theorem put_release (fitting : set.Fitting index region) {left : ℕ}
    (free : ∀ later ≥ left, (update set.regions index region later).acquired = false) :
    RegionSet.Shaped { set.putRegion index region with phase := .releasing left } :=
  shaped.put fitting nofun nofun
    nofun (fun _ is => by cases is; exact free) nofun
    nofun

/-- The set releases all its regions. -/
theorem put_release_all (fitting : set.Fitting index region) :
    RegionSet.Shaped
      { set.putRegion index region with phase := .releasing set.rows.length } := by
  refine shaped.put_release fitting fun later above => ?_
  by_cases same : later = index
  · subst same
    rw [update_self, ← Bool.not_eq_true]
    exact fun acquired => absurd (fitting.inside acquired) (by omega)
  · rw [update_of_ne same]
    exact shaped.outside above

theorem fitting : set.Fitting index (set.regions index) :=
  ⟨shaped.registered, shaped.inside⟩

/-- Only the phase changes, to the acquisition of a region from which on none is acquired. -/
theorem acquire_from {next : ℕ}
    (free : ∀ later ≥ next, (set.regions later).acquired = false)
    (checked : ∀ earlier < next, (set.regions earlier).acquired →
      (set.regions earlier).allocation.Ranged) :
    RegionSet.Shaped { set with phase := .acquiring next } := by
  refine ⟨shaped.registered, shaped.inside, ?_, nofun, nofun,
    nofun, nofun, ?_⟩
  · intro index is
    cases is
    exact free
  · intro other _ acquired
    apply checked other ?_ acquired
    by_contra above
    rw [free other (by omega)] at acquired
    cases acquired

/-- Only the phase changes, to the release of the regions before one from which on none is
acquired. -/
theorem release_from {left : ℕ}
    (free : ∀ later ≥ left, (set.regions later).acquired = false) :
    RegionSet.Shaped { set with phase := .releasing left } := by
  refine ⟨shaped.registered, shaped.inside, nofun, nofun,
    nofun, ?_, nofun, nofun⟩
  intro next is
  cases is
  exact free

/-- Only the phase changes, to one that says nothing. -/
theorem rest : RegionSet.Shaped { set with phase := .idle } :=
  ⟨shaped.registered, shaped.inside, nofun, nofun,
    nofun, nofun, nofun, nofun⟩

end RegionSet.Shaped

theorem RegionSet.putRegion_provider (set : RegionSet) (index : ℕ) (region : Region) :
    (set.putRegion index region).provider = set.provider :=
  rfl

variable {index : ℕ}

/-- The region itself does not count among the others. -/
theorem RegionSet.otherAllocations_putRegion (set : RegionSet) (region : Region) :
    (set.putRegion index region).otherAllocations index = set.otherAllocations index := by
  unfold RegionSet.otherAllocations RegionSet.putRegion
  have same : ∀ other ∈ (List.range set.rows.length).filter (fun other =>
      other ≠ index && (set.regions other).acquired),
      (update set.regions index region other).allocation =
        (set.regions other).allocation := by
    intro other mem
    simp only [List.mem_filter, Bool.and_eq_true, decide_eq_true_eq] at mem
    rw [update_of_ne mem.2.1]
  rw [← List.map_congr_left same]
  congr 1
  apply List.filter_congr
  intro other _
  by_cases eq : other = index
  · simp [eq]
  · simp only [update_of_ne eq]

variable {allocation : MemoryProviderAllocation}

/-- An allocation without a token is rejected by the first check. -/
theorem MemoryProviderAllocation.validate_null {row : MemoryPolicyRow}
    {provider : Option MemoryProviderCapabilities} {others : List MemoryProviderAllocation}
    (null : allocation.token = 0) :
    allocation.validate row provider others = .error .undersizedOrMisalignedSpan := by
  unfold validate
  rw [reject, if_pos (.inl null)]
  rfl

theorem MemoryProviderAllocation.ranged_of_validate {row : MemoryPolicyRow}
    {provider : Option MemoryProviderCapabilities} {others : List MemoryProviderAllocation}
    {u : Unit} (ok : allocation.validate row provider others = .ok u) : allocation.Ranged := by
  unfold validate at ok
  rw [reject_bind_eq_ok] at ok
  obtain ⟨span, ok⟩ := ok
  rw [reject_bind_eq_ok] at ok
  obtain ⟨extent, -⟩ := ok
  push Not at span extent
  exact ⟨span.2.2.2.1, extent.1⟩

/-! ## Stages -/

inductive Stage where
  /-- not acquired -/
  | free
  /-- the token of a failed acquire is about to be registered -/
  | provisional
  /-- acquired, about to be registered -/
  | pending
  /-- acquired and registered -/
  | owned
  /-- acquired and to be released without a registration -/
  | doomed
  /-- the provider has been told to release it -/
  | leaving
  deriving DecidableEq, Repr

/-- The region that a phase is about to settle. -/
def SetPhase.target : SetPhase → Option ℕ
  | .registering index | .registeringProvisional index _ | .unregistering index => some index
  | _ => none

def SetPhase.provisionalAt (index : ℕ) : SetPhase → Bool
  | .registeringProvisional at_ _ => at_ = index
  | _ => false

/-- The stage of the region with this number while its set is in this phase. -/
def Region.stageIn (region : Region) (phase : SetPhase) (index : ℕ) : Stage :=
  if phase = .unregistering index then .leaving
  else if phase.provisionalAt index then .provisional
  else if region.acquired = false then .free
  else if region.registered then .owned
  else if phase = .registering index then .pending
  else .doomed

/-- A phase that is not about the region does not matter to it. -/
theorem Region.stageIn_elsewhere (region : Region) {phase : SetPhase}
    (elsewhere : phase.target ≠ some index) :
    region.stageIn phase index = if region.acquired = false then .free
      else if region.registered then .owned else .doomed := by
  cases phase <;> simp_all [Region.stageIn, SetPhase.target, SetPhase.provisionalAt]

def RegionSet.stage (set : RegionSet) (index : ℕ) : Stage :=
  (set.regions index).stageIn set.phase index

/-- The range of the entry is that of the allocation, or empty. -/
def LiveAllocation.Covers {ι : Type} (live : LiveAllocation ι)
    (allocation : MemoryProviderAllocation) : Prop :=
  live.allocationBegin = allocation.allocationBase ∧
      live.allocationEnd = allocation.allocationEnd ∧ allocation.allocationBytes ≠ 0 ∨
    live.allocationBegin = 0 ∧ live.allocationEnd = 0

attribute [simp] Region.stageIn SetPhase.provisionalAt

theorem Region.provisionalEntry_covers {ι : Type} (region : Region) (owner : ι × ℕ) :
    (region.provisionalEntry owner).Covers region.allocation := by
  unfold Region.provisionalEntry
  dsimp only
  split_ifs with known
  · simp only [Bool.and_eq_true, decide_eq_true_eq] at known
    exact .inl ⟨rfl, rfl, known.1.2⟩
  · exact .inr ⟨rfl, rfl⟩

theorem Region.meets_of_overlapsProvisional {ι : Type} {region : Region} {owner : ι × ℕ}
    {live : LiveAllocation ι} (overlaps : (region.provisionalEntry owner).overlapsProvisional live) :
    region.allocation.allocationBytes ≠ 0 ∧
      rangesMeet region.allocation.allocationBase region.allocation.allocationEnd
        live.allocationBegin live.allocationEnd := by
  simp only [LiveAllocation.overlapsProvisional, Bool.and_eq_true, decide_eq_true_eq] at overlaps
  obtain ⟨⟨nonempty, -⟩, meets⟩ := overlaps
  rcases region.provisionalEntry_covers owner with ⟨first, last, bytes⟩ | ⟨first, last⟩
  · rw [LiveAllocation.overlaps, first, last] at meets
    exact ⟨bytes, meets⟩
  · omega

/-- A token is registered only if no entry has it. -/
theorem registrationResult_registered {ι : Type} {registry : List (LiveAllocation ι)} {token : ℕ}
    {meets : LiveAllocation ι → Bool} (ok : registrationResult registry token meets = .registered) :
    ∀ other ∈ registry, other.token ≠ token := by
  induction registry with
  | nil => simp
  | cons entry rest ih =>
    unfold registrationResult at ok
    split_ifs at ok with same meeting
    intro other mem
    rcases List.mem_cons.mp mem with rfl | mem
    · exact same
    · exact ih ok other mem

/-- An overlap is found with an entry that has another token. -/
theorem registrationResult_overlapping {ι : Type} {registry : List (LiveAllocation ι)} {token : ℕ}
    {meets : LiveAllocation ι → Bool}
    (result : registrationResult registry token meets = .overlappingSpan) :
    ∃ live ∈ registry, live.token ≠ token ∧ meets live := by
  induction registry with
  | nil => cases result
  | cons entry rest ih =>
    unfold registrationResult at result
    split_ifs at result with same meeting
    · exact ⟨entry, List.mem_cons_self, same, meeting⟩
    · obtain ⟨live, mem, rest⟩ := ih result
      exact ⟨live, List.mem_cons_of_mem _ mem, rest⟩

namespace RegionProcess

variable {ι : Type}

def stage (s : RegionProcess ι) (i : ι) (index : ℕ) : Stage := (s.sets i).stage index

def region (s : RegionProcess ι) (i : ι) (index : ℕ) : Region := (s.sets i).regions index

/-- The set has this token and has not told the provider to release it. -/
def Holds (s : RegionProcess ι) (i : ι) (index token : ℕ) : Prop :=
  (s.stage i index = .pending ∨ s.stage i index = .owned ∨ s.stage i index = .doomed) ∧
    (s.region i index).allocation.token = token

/-- The set has acquired and registered this token and has not told the provider to release it. -/
def Owns (s : RegionProcess ι) (i : ι) (token : ℕ) : Prop :=
  ∃ index, s.stage i index = .owned ∧ (s.region i index).allocation.token = token

/-- A registered allocation has the token, or an address of the range. -/
def Conflict (s : RegionProcess ι) (allocation : MemoryProviderAllocation) : Prop :=
  ∃ live ∈ s.registry, live.token = allocation.token ∨ allocation.allocationBytes ≠ 0 ∧
    rangesMeet allocation.allocationBase allocation.allocationEnd live.allocationBegin
      live.allocationEnd

/-- A registration that fails has met a conflict. -/
theorem registrationResult_conflict {s : RegionProcess ι} {meets : LiveAllocation ι → Bool}
    {result : RegistrationResult}
    (outcome : registrationResult s.registry allocation.token meets = result)
    (failed : result ≠ .registered) (real : ∀ live, meets live → allocation.allocationBytes ≠ 0 ∧
      rangesMeet allocation.allocationBase allocation.allocationEnd live.allocationBegin
        live.allocationEnd) : s.Conflict allocation := by
  unfold Conflict
  generalize s.registry = registry at outcome ⊢
  induction registry with
  | nil => exact absurd outcome.symm failed
  | cons entry rest ih =>
    unfold registrationResult at outcome
    split_ifs at outcome with same meeting
    · exact ⟨entry, List.mem_cons_self, .inl same⟩
    · exact ⟨entry, List.mem_cons_self, .inr (real entry meeting)⟩
    · obtain ⟨live, mem, conflict⟩ := ih outcome
      exact ⟨live, List.mem_cons_of_mem _ mem, conflict⟩

theorem stage_acquiring {s : RegionProcess ι} {i : ι} (shaped : ∀ i, (s.sets i).Shaped)
    (phase : (s.sets i).phase = .acquiring index) : s.stage i index = .free := by
  have unowned := (shaped i).acquiring phase index le_rfl
  simp [stage, RegionSet.stage, phase, unowned]

/-! ## Moves -/

variable [DecidableEq ι]

/-- Only this region is changed. -/
structure Frame (s t : RegionProcess ι) (i : ι) (index : ℕ) : Prop where
  stage {j : ι} {other : ℕ} : (j, other) ≠ (i, index) → t.stage j other = s.stage j other
  region {j : ι} {other : ℕ} : (j, other) ≠ (i, index) → t.region j other = s.region j other
  provider (j : ι) : (t.sets j).provider = (s.sets j).provider

/-- A move leaves a region and its stage as they are. -/
def SameAt (s t : RegionProcess ι) (j : ι) (other : ℕ) : Prop :=
  t.stage j other = s.stage j other ∧ t.region j other = s.region j other

omit [DecidableEq ι] in
/-- The region that a move is about is the only one it changes. -/
theorem Frame.here {i j : ι} {index other : ℕ} (frame : Frame s t i index)
    (changed : ¬ s.SameAt t j other) : (j, other) = (i, index) :=
  by_contra fun ne => changed ⟨frame.stage ne, frame.region ne⟩

/-- A set gets a new region under this number and goes on to a phase about no other region. -/
structure Writes (s t : RegionProcess ι) (i : ι) (index : ℕ) (region : Region)
    (phase : SetPhase) : Prop where
  sets : t.sets = Function.update s.sets i
    { (s.sets i).putRegion index region with phase := phase }
  before : ∀ other, (s.sets i).phase.target = some other → other = index
  after : ∀ other, phase.target = some other → other = index

namespace Writes

variable {s t : RegionProcess ι} {i : ι} {index : ℕ} {region : Region} {phase : SetPhase}

section

variable (writes : Writes s t i index region phase)
include writes

theorem set_eq : t.sets i = { (s.sets i).putRegion index region with phase := phase } := by
  rw [writes.sets, update_self]

theorem region_eq : t.region i index = region := by
  unfold RegionProcess.region
  rw [writes.set_eq]
  exact update_self ..

theorem stage_eq : t.stage i index = region.stageIn phase index := by
  unfold RegionProcess.stage RegionSet.stage
  rw [writes.set_eq]
  simp only [RegionSet.putRegion, update_self]

theorem frame : Frame s t i index := by
  constructor
  case stage =>
    intro j other ne
    unfold RegionProcess.stage
    rw [writes.sets]
    by_cases same : j = i
    · subst same
      have apart : other ≠ index := fun eq => ne (by rw [eq])
      rw [update_self]
      simp only [RegionSet.stage, RegionSet.putRegion, update_of_ne apart]
      rw [Region.stageIn_elsewhere _ fun is => apart (writes.before other is),
        Region.stageIn_elsewhere _ fun is => apart (writes.after other is)]
    · rw [update_of_ne same]
  case region =>
    intro j other ne
    unfold RegionProcess.region
    rw [writes.sets]
    by_cases same : j = i
    · subst same
      have apart : other ≠ index := fun eq => ne (by rw [eq])
      rw [update_self]
      exact update_of_ne apart _ _
    · rw [update_of_ne same]
  case provider =>
    rw [writes.sets]
    exact (forall_update_iff s.sets fun j new => new.provider = (s.sets j).provider).mpr
      ⟨rfl, fun _ _ => rfl⟩

end

end Writes

/-- What a piece does to the regions, the registry and the histories.  Each move names the region,
and the action where more than its effect matters. -/
inductive Effect (s t : RegionProcess ι) : RegionAction ι → Prop where
  /-- nothing but allocations of free regions -/
  | quiet {a : RegionAction ι} (i : ι) (index : ℕ) (frame : Frame s t i index)
      (stage : t.stage i index = s.stage i index)
      (region : s.stage i index = .free ∨ t.region i index = s.region i index)
      (registry : t.registry = s.registry) (calls : t.calls = s.calls)
      (answers : t.answers = s.answers) : Effect s t a
  /-- an answer is not taken up -/
  | refuse (i : ι) (index : ℕ) (answer : AcquireAnswer) (frame : Frame s t i index)
      (phase : (s.sets i).phase = .acquiring index)
      (before : s.stage i index = .free) (after : t.stage i index = .free)
      (cause : (s.sets i).provider = none ∨ answer.2.token = 0 ∨
        (s.sets i).duplicateLiveToken index answer.2.token)
      (registry : t.registry = s.registry) (calls : t.calls = s.calls)
      (answers : t.answers = s.answers ++ [⟨i, index, answer.1, answer.2⟩]) :
      Effect s t (.advance i answer)
  /-- an answer is taken up -/
  | adopt (i : ι) (index : ℕ) (answer : AcquireAnswer) (row : MemoryPolicyRow)
      (frame : Frame s t i index) (free : s.stage i index = .free)
      (phase : (s.sets i).phase = .acquiring index)
      (row_eq : (s.sets i).rows[index]? = some (some row))
      (token : (s.sets i).provider = none ∨ answer.2.token ≠ 0)
      (taken : t.stage i index = .provisional ∧ answer.1 ≠ .ok ∨
        t.stage i index = .pending ∧ answer.1 = .ok ∨
        t.stage i index = .doomed ∧ answer.1 = .ok ∧ ∃ diagnostic,
          answer.2.validate row (s.sets i).provider ((s.sets i).otherAllocations index) =
            .error diagnostic)
      (region : (t.region i index).allocation = answer.2 ∧
        (t.region i index).answer = s.answers.length)
      (registry : t.registry = s.registry) (calls : t.calls = s.calls)
      (answers : t.answers = s.answers ++ [⟨i, index, answer.1, answer.2⟩]) :
      Effect s t (.advance i answer)
  /-- the region is registered -/
  | enlist (i : ι) (index : ℕ) (answer : AcquireAnswer) (frame : Frame s t i index)
      (before : (s.stage i index = .provisional ∧
          ∃ status, (s.sets i).phase = .registeringProvisional index status) ∨
        s.stage i index = .pending ∧ (s.sets i).phase = .registering index)
      (after : t.stage i index = .owned)
      (region : (t.region i index).allocation = (s.region i index).allocation ∧
        (t.region i index).answer = (s.region i index).answer)
      (entry : LiveAllocation ι) (owner : entry.owner = (i, index))
      (token : entry.token = (s.region i index).allocation.token)
      (range : entry.Covers (s.region i index).allocation)
      (unused : ∀ other ∈ s.registry, other.token ≠ entry.token)
      (registry : t.registry = entry :: s.registry) (calls : t.calls = s.calls)
      (answers : t.answers = s.answers) :
      Effect s t (.advance i answer)
  /-- a token that is already registered is given up -/
  | drop (i : ι) (index : ℕ) (answer : AcquireAnswer) (frame : Frame s t i index)
      (before : (s.stage i index = .provisional ∧
          ∃ status, (s.sets i).phase = .registeringProvisional index status) ∨
        s.stage i index = .pending ∧ (s.sets i).phase = .registering index)
      (after : t.stage i index = .free) (conflict : s.Conflict (s.region i index).allocation)
      (registry : t.registry = s.registry) (calls : t.calls = s.calls)
      (answers : t.answers = s.answers) : Effect s t (.advance i answer)
  /-- a range that is already registered is to be released -/
  | doom (i : ι) (index : ℕ) (answer : AcquireAnswer) (frame : Frame s t i index)
      (before : s.stage i index = .pending) (phase : (s.sets i).phase = .registering index)
      (after : t.stage i index = .doomed) (region : t.region i index = s.region i index)
      (conflict : s.Conflict (s.region i index).allocation)
      (overlapping : registrationResult s.registry (s.region i index).allocation.token
        ((s.region i index).liveEntry (i, index)).overlaps = .overlappingSpan)
      (registry : t.registry = s.registry) (calls : t.calls = s.calls)
      (answers : t.answers = s.answers) : Effect s t (.advance i answer)
  /-- the provider is told to release the region -/
  | call {a : RegionAction ι} (i : ι) (index : ℕ) (frame : Frame s t i index)
      (before : s.stage i index = .owned ∨ s.stage i index = .doomed)
      (after : t.stage i index = .leaving) (region : t.region i index = s.region i index)
      (registry : t.registry = s.registry)
      (calls : t.calls = s.calls ∧ (s.sets i).provider = none ∨
        t.calls = s.calls ∧ (s.region i index).allocation.token = 0 ∨
        (s.region i index).allocation.token ≠ 0 ∧
          t.calls = ⟨i, (s.region i index).allocation.token, (s.region i index).answer⟩ :: s.calls)
      (answers : t.answers = s.answers) : Effect s t a
  /-- the region is removed from the registry -/
  | leave {a : RegionAction ι} (i : ι) (index : ℕ) (frame : Frame s t i index)
      (before : s.stage i index = .leaving) (after : t.stage i index = .free)
      (registry : t.registry = if (s.region i index).registered then
        s.registry.filter (·.owner ≠ (i, index)) else s.registry)
      (calls : t.calls = s.calls) (answers : t.answers = s.answers) : Effect s t a

variable {s t : RegionProcess ι} {i : ι} {a : RegionAction ι}

/-- What is proved of every piece. -/
structure Moves (s t : RegionProcess ι) (a : RegionAction ι) : Prop where
  effect : Effect s t a
  shaped : ∀ i, (t.sets i).Shaped

/-- Only the set that acts has to be looked at. -/
theorem shaped_of_writes {region : Region} {phase : SetPhase} (shaped : ∀ i, (s.sets i).Shaped)
    (writes : Writes s t i index region phase)
    (new : RegionSet.Shaped { (s.sets i).putRegion index region with phase := phase }) :
    ∀ j, (t.sets j).Shaped := by
  rw [writes.sets]
  exact (forall_update_iff s.sets fun _ new => new.Shaped).mpr ⟨new, fun j _ => shaped j⟩

/-- The phase of a set changes and no region is looked at. -/
theorem moves_of_phase {phase : SetPhase} (shaped : ∀ i, (s.sets i).Shaped)
    (sets : t.sets = update s.sets i { s.sets i with phase := phase })
    (before : (s.sets i).phase.target = none) (after : phase.target = none)
    (new : RegionSet.Shaped { s.sets i with phase := phase })
    (registry : t.registry = s.registry) (calls : t.calls = s.calls)
    (answers : t.answers = s.answers) : Moves s t a := by
  have same : (s.sets i).putRegion 0 ((s.sets i).regions 0) = s.sets i :=
    RegionSet.Shaped.putRegion_self _ _
  have writes : Writes s t i 0 ((s.sets i).regions 0) phase :=
    ⟨by rw [same, sets], by simp [before], by simp [after]⟩
  have stage : t.stage i 0 = s.stage i 0 := by
    rw [writes.stage_eq, Region.stageIn_elsewhere _ (by simp [after])]
    exact (Region.stageIn_elsewhere _ (by simp [before])).symm
  exact ⟨.quiet i 0 writes.frame stage (.inr writes.region_eq) registry calls answers,
    shaped_of_writes shaped writes (by rwa [same])⟩

theorem beginAcquire_moves (shaped : ∀ i, (s.sets i).Shaped) (can : (s.sets i).canAcquire) :
    Moves s (s.putSet i { s.sets i with phase := .acquiring 0 }) a := by
  simp only [RegionSet.canAcquire, Bool.and_eq_true, decide_eq_true_eq, List.all_eq_true,
    List.mem_range, Bool.not_eq_true'] at can
  have free : ∀ later, ((s.sets i).regions later).acquired = false := by
    intro later
    by_cases inside : later < (s.sets i).rows.length
    · exact can.2 later inside
    · rw [← Bool.not_eq_true]
      exact fun acquired => inside ((shaped i).inside acquired)
  exact moves_of_phase shaped rfl (by rw [can.1]; rfl) rfl
    ((shaped i).acquire_from (fun later _ => free later) fun _ below => absurd below (by omega))
    rfl rfl rfl

section Receive

variable {index : ℕ} {row : MemoryPolicyRow} {answer : AcquireAnswer}

section

variable (shaped : ∀ i, (s.sets i).Shaped)
include shaped

/-- The answer is given up: nothing was acquired. -/
theorem refuse_moves (answer : AcquireAnswer) {region : Region}
    (phase : (s.sets i).phase = .acquiring index) (unowned : region.acquired = false)
    (unregistered : region.registered = false)
    (cause : (s.sets i).provider = none ∨ answer.2.token = 0 ∨
      (s.sets i).duplicateLiveToken index answer.2.token) (diagnostic : AcquireDiagnostic) :
    Moves s (fail { s with answers := s.answers ++ [⟨i, index, answer.1, answer.2⟩] } i
      ((s.sets i).putRegion index region) diagnostic) (.advance i answer) := by
  have before := stage_acquiring shaped phase
  have writes : Writes s (fail { s with answers := s.answers ++ [⟨i, index, answer.1, answer.2⟩] } i
      ((s.sets i).putRegion index region) diagnostic) i index region
      (.releasing (s.sets i).rows.length) :=
    ⟨rfl, by simp [phase, SetPhase.target], nofun⟩
  have after : region.stageIn (.releasing (s.sets i).rows.length) index = .free := by
    simp [unowned]
  refine ⟨.refuse i index answer writes.frame phase before (writes.stage_eq.trans after) cause rfl
    rfl rfl, ?_⟩
  exact shaped_of_writes shaped writes
    ((shaped i).put_release_all ⟨by simp [unregistered], by simp [unowned]⟩)

section

variable (phase : (s.sets i).phase = .acquiring index)
  (row_eq : (s.sets i).rows[index]? = some (some row))
include phase row_eq

/-- The answer is adopted and checked. -/
theorem checkAnswer_moves
    (token : (s.sets i).provider = none ∨ answer.2.token ≠ 0) (ok : answer.1 = .ok) {adopted : Region}
    (acquired : adopted.acquired) (unregistered : adopted.registered = false)
    (region : adopted.allocation = answer.2 ∧ adopted.answer = s.answers.length) :
    Moves s (checkAnswer { s with answers := s.answers ++ [⟨i, index, answer.1, answer.2⟩] } i index
      row ((s.sets i).putRegion index adopted) answer.2) (.advance i answer) := by
  have inside : index < (s.sets i).rows.length := (List.getElem?_eq_some_iff.mp row_eq).1
  have unowned := (shaped i).acquiring phase
  have free := stage_acquiring shaped phase
  have fitting : (s.sets i).Fitting index adopted := ⟨by simp [unregistered], fun _ => inside⟩
  have before : ∀ other, (s.sets i).phase.target = some other → other = index := by
    simp [phase, SetPhase.target]
  generalize moved : (checkAnswer _ _ _ _ _ _ : RegionProcess ι) = t
  rw [checkAnswer, RegionSet.otherAllocations_putRegion, RegionSet.putRegion_provider] at moved
  cases verdict : answer.2.validate row (s.sets i).provider ((s.sets i).otherAllocations index) with
  | error diagnostic =>
    rw [verdict] at moved
    have writes : Writes s t i index adopted (.releasing (s.sets i).rows.length) :=
      ⟨by rw [← moved]; rfl, before, nofun⟩
    have doomed : adopted.stageIn (.releasing (s.sets i).rows.length) index = .doomed := by
      simp [acquired, unregistered]
    subst moved
    refine ⟨.adopt i index answer row writes.frame free phase row_eq token
      (.inr (.inr ⟨writes.stage_eq.trans doomed, ok, diagnostic, verdict⟩))
      (by rwa [writes.region_eq]) rfl rfl rfl, ?_⟩
    exact shaped_of_writes shaped writes ((shaped i).put_release_all fitting)
  | ok _ =>
    rw [verdict] at moved
    have writes : Writes s t i index adopted (.registering index) :=
      ⟨by rw [← moved]; rfl, before, by simp [SetPhase.target]⟩
    have pending : adopted.stageIn (.registering index) index = .pending := by
      simp [acquired, unregistered]
    subst moved
    refine ⟨.adopt i index answer row writes.frame free phase row_eq token
      (.inr (.inl ⟨writes.stage_eq.trans pending, ok⟩)) (by rwa [writes.region_eq]) rfl rfl rfl, ?_⟩
    refine shaped_of_writes shaped writes ((shaped i).put fitting nofun ?_
      nofun nofun nofun
      fun _ => ⟨by rw [phase]; rfl, fun _ => ?_⟩)
    · rintro next is
      cases is
      exact ⟨rfl, acquired, unregistered, fun later above => unowned later above.le⟩
    · rw [region.1]
      exact MemoryProviderAllocation.ranged_of_validate verdict

/-- The acquire has failed and left a token behind. -/
theorem provisional_moves
    (token : (s.sets i).provider = none ∨ answer.2.token ≠ 0) (failed : answer.1 ≠ .ok)
    {left : Region}
    (unacquired : left.acquired = false) (unregistered : left.registered = false)
    (region : left.allocation = answer.2 ∧ left.answer = s.answers.length) :
    Moves s (putSet { s with answers := s.answers ++ [⟨i, index, answer.1, answer.2⟩] } i
      { (s.sets i).putRegion index left with
        phase := .registeringProvisional index answer.1 }) (.advance i answer) := by
  have inside : index < (s.sets i).rows.length := (List.getElem?_eq_some_iff.mp row_eq).1
  have unowned := (shaped i).acquiring phase
  have free := stage_acquiring shaped phase
  generalize moved : (putSet _ _ _ : RegionProcess ι) = t
  have writes : Writes s t i index left (.registeringProvisional index answer.1) :=
    ⟨by rw [← moved]; rfl, by simp [phase, SetPhase.target], by simp [SetPhase.target]⟩
  have provisional : left.stageIn (.registeringProvisional index answer.1) index =
      .provisional := by
    simp
  subst moved
  refine ⟨.adopt i index answer row writes.frame free phase row_eq token
    (.inl ⟨writes.stage_eq.trans provisional, failed⟩) (by rwa [writes.region_eq]) rfl rfl rfl, ?_⟩
  refine shaped_of_writes shaped writes ((shaped i).put
    ⟨by simp [unregistered], by simp [unacquired]⟩ nofun
    nofun ?_ nofun nofun
    nofun)
  rintro next status is
  cases is
  exact ⟨rfl, inside, unacquired, fun later above => unowned later above.le⟩

theorem receiveAnswer_moves : Moves s (s.receiveAnswer i index row answer) (.advance i answer) := by
  have unowned := (shaped i).acquiring phase index le_rfl
  have unregistered : ((s.sets i).regions index).registered = false := by
    rw [← Bool.not_eq_true]
    intro registered
    rw [(shaped i).registered registered] at unowned
    cases unowned
  cases provided : (s.sets i).provider with
  | none =>
    simp only [receiveAnswer, provided]
    split_ifs with failed
    · have given := refuse_moves shaped answer phase unowned unregistered (.inl provided)
        (.nativeAcquisitionFailed answer.1)
      rwa [RegionSet.Shaped.putRegion_self] at given
    · exact checkAnswer_moves shaped phase row_eq (.inl provided) (not_not.mp failed) rfl rfl
        ⟨rfl, rfl⟩
  | some _ =>
    simp only [receiveAnswer, provided]
    split_ifs with failed tokened null duplicate
    · exact provisional_moves shaped phase row_eq (.inr tokened) failed rfl rfl ⟨rfl, rfl⟩
    · exact refuse_moves shaped answer phase rfl rfl (.inr (.inl (not_not.mp tokened))) _
    · rw [checkAnswer, MemoryProviderAllocation.validate_null null]
      exact refuse_moves shaped answer phase rfl rfl (.inr (.inl null)) _
    · exact refuse_moves shaped answer phase rfl rfl (.inr (.inr duplicate)) _
    · exact checkAnswer_moves shaped phase row_eq (.inr null) (not_not.mp failed) rfl rfl ⟨rfl, rfl⟩

end

end

end Receive

variable {answer : AcquireAnswer}

section

variable (shaped : ∀ i, (s.sets i).Shaped)
include shaped

theorem registerLive_moves (phase : (s.sets i).phase = .registering index) :
    Moves s (s.registerLive i index) (.advance i answer) := by
  obtain ⟨acquired, unregistered, free⟩ := (shaped i).registering phase
  have pending : s.stage i index = .pending := by
    simp [stage, RegionSet.stage, phase, acquired, unregistered]
  have before : ∀ other, (s.sets i).phase.target = some other → other = index := by
    simp [phase, SetPhase.target]
  have inside := (shaped i).inside acquired
  have checks : (s.sets i).phase.checks := by rw [phase]; rfl
  have ranged := (shaped i).checked checks acquired
  generalize moved : s.registerLive i index = t
  generalize outcome : registrationResult s.registry
    (((s.sets i).regions index).liveEntry (i, index)).token
    (((s.sets i).regions index).liveEntry (i, index)).overlaps = result
  simp only [registerLive, outcome] at moved
  cases result with
  | registered =>
    have writes : Writes s t i index { (s.sets i).regions index with registered := true }
        (.acquiring (index + 1)) := ⟨by rw [← moved]; rfl, before, nofun⟩
    subst moved
    refine ⟨.enlist i index answer writes.frame (.inr ⟨pending, phase⟩)
      (writes.stage_eq.trans ?_) ?_ _ rfl rfl (.inl ⟨rfl, rfl, ranged.1⟩)
      (registrationResult_registered outcome) rfl rfl rfl, ?_⟩
    · simp [acquired]
    · rw [writes.region_eq]
      exact ⟨rfl, rfl⟩
    · have fitting : (s.sets i).Fitting index
          { (s.sets i).regions index with registered := true } :=
        ⟨fun _ => acquired, fun _ => inside⟩
      refine shaped_of_writes shaped writes ((shaped i).put fitting ?_
        nofun nofun nofun
        nofun fun _ => ⟨checks, fun _ => ranged⟩)
      intro next is
      cases is
      intro later above
      rw [update_of_ne (by omega)]
      exact free later (by omega)
  | duplicateToken =>
    have writes : Writes s t i index { (s.sets i).regions index with acquired := false }
        (.releasing (s.sets i).rows.length) := ⟨by rw [← moved]; rfl, before, nofun⟩
    subst moved
    refine ⟨.drop i index answer writes.frame (.inr ⟨pending, phase⟩) (writes.stage_eq.trans ?_)
      (registrationResult_conflict outcome (by simp) fun _ meets => ⟨ranged.1, meets⟩) rfl rfl rfl, ?_⟩
    · simp
    · exact shaped_of_writes shaped writes
        ((shaped i).put_release_all ⟨by simp [unregistered], by simp⟩)
  | overlappingSpan =>
    have writes : Writes s t i index ((s.sets i).regions index)
        (.releasing (s.sets i).rows.length) :=
      ⟨by rw [← moved, RegionSet.Shaped.putRegion_self]; rfl, before, nofun⟩
    subst moved
    refine ⟨.doom i index answer writes.frame pending phase (writes.stage_eq.trans ?_)
      writes.region_eq
      (registrationResult_conflict outcome (by simp) fun _ meets => ⟨ranged.1, meets⟩) outcome rfl rfl
      rfl, ?_⟩
    · simp [acquired, unregistered]
    · exact shaped_of_writes shaped writes ((shaped i).put_release_all (shaped i).fitting)

theorem registerProvisional_moves {status : Status}
    (phase : (s.sets i).phase = .registeringProvisional index status) :
    Moves s (s.registerProvisional i index status) (.advance i answer) := by
  obtain ⟨inside, unowned⟩ := (shaped i).provisional phase
  have provisional : s.stage i index = .provisional := by
    simp [stage, RegionSet.stage, phase]
  have before : ∀ other, (s.sets i).phase.target = some other → other = index := by
    simp [phase, SetPhase.target]
  have dropped : s.Conflict (s.region i index).allocation →
      Moves s (s.fail i (s.sets i) (.providerAcquisitionFailed status)) (.advance i answer) := by
    intro conflict
    generalize moved : (fail _ _ _ _ : RegionProcess ι) = t
    have writes : Writes s t i index ((s.sets i).regions index)
        (.releasing (s.sets i).rows.length) :=
      ⟨by rw [← moved, RegionSet.Shaped.putRegion_self]; rfl, before, nofun⟩
    subst moved
    refine ⟨.drop i index answer writes.frame (.inl ⟨provisional, status, phase⟩)
      (writes.stage_eq.trans ?_) conflict rfl rfl rfl, ?_⟩
    · simp [unowned index le_rfl]
    · exact shaped_of_writes shaped writes ((shaped i).put_release_all (shaped i).fitting)
  generalize moved : s.registerProvisional i index status = t
  generalize outcome : registrationResult s.registry
    (((s.sets i).regions index).provisionalEntry (i, index)).token
    (((s.sets i).regions index).provisionalEntry (i, index)).overlapsProvisional = result
  simp only [registerProvisional, outcome] at moved
  cases result with
  | registered =>
    have writes : Writes s t i index
        { (s.sets i).regions index with acquired := true, registered := true }
        (.releasing (s.sets i).rows.length) := ⟨by rw [← moved]; rfl, before, nofun⟩
    subst moved
    refine ⟨.enlist i index answer writes.frame (.inl ⟨provisional, status, phase⟩)
      (writes.stage_eq.trans ?_) ?_ _ rfl rfl (Region.provisionalEntry_covers _ _)
      (registrationResult_registered outcome) rfl rfl rfl, ?_⟩
    · simp
    · rw [writes.region_eq]
      exact ⟨rfl, rfl⟩
    · exact shaped_of_writes shaped writes
        ((shaped i).put_release_all ⟨fun _ => rfl, fun _ => inside⟩)
  | duplicateToken | overlappingSpan =>
    exact moved ▸ dropped (registrationResult_conflict outcome (by simp)
      fun _ => Region.meets_of_overlapsProvisional)

theorem releaseRegion_moves
    (phase : (s.sets i).phase = .releasing (index + 1)) : Moves s (s.releaseRegion i index) a := by
  have before : (s.sets i).phase.target = none := by rw [phase]; rfl
  generalize moved : s.releaseRegion i index = t
  simp only [releaseRegion] at moved
  split at moved
  · subst moved
    rename_i unowned
    refine moves_of_phase shaped rfl before rfl ((shaped i).release_from fun later above => ?_) rfl
      rfl rfl
    rcases eq_or_lt_of_le above with rfl | above
    · simpa using unowned
    · exact (shaped i).releasing phase later above
  case isFalse owned =>
    have acquired : ((s.sets i).regions index).acquired := by simpa using owned
    have sets : t.sets = update s.sets i
        { (s.sets i).putRegion index ((s.sets i).regions index) with
          phase := .unregistering index } := by
      rw [RegionSet.Shaped.putRegion_self, ← moved]
      split <;> rfl
    have writes : Writes s t i index ((s.sets i).regions index) (.unregistering index) :=
      ⟨sets, by simp [before], by simp [SetPhase.target]⟩
    have stage : s.stage i index = .owned ∨ s.stage i index = .doomed := by
      rw [RegionProcess.stage, RegionSet.stage, Region.stageIn_elsewhere _ (by simp [before])]
      rw [if_neg (by simp [acquired])]
      cases ((s.sets i).regions index).registered
      · exact .inr rfl
      · exact .inl rfl
    refine ⟨.call i index writes.frame stage (writes.stage_eq.trans ?_) writes.region_eq ?_ ?_ ?_, ?_⟩
    · simp
    · rw [← moved]
      split <;> rfl
    · split at moved
      · rename_i loud
        simp only [Bool.and_eq_true, decide_eq_true_eq] at loud
        exact .inr (.inr ⟨loud.2, by rw [← moved]; rfl⟩)
      · rename_i silent
        simp only [Bool.and_eq_true, decide_eq_true_eq, not_and, not_not, Option.isSome_iff_ne_none]
          at silent
        by_cases provided : (s.sets i).provider = none
        · exact .inl ⟨by rw [← moved]; rfl, provided⟩
        · exact .inr (.inl ⟨by rw [← moved]; rfl, silent provided⟩)
    · rw [← moved]
      split <;> rfl
    · refine shaped_of_writes shaped writes ((shaped i).put (shaped i).fitting
        nofun nofun nofun
        nofun ?_ nofun)
      intro next is
      cases is
      exact ⟨rfl, acquired, (shaped i).releasing phase⟩

theorem unregisterRegion_moves (phase : (s.sets i).phase = .unregistering index) :
    Moves s (s.unregisterRegion i index) a := by
  have leaving : s.stage i index = .leaving := by
    simp [stage, RegionSet.stage, phase]
  generalize moved : s.unregisterRegion i index = t
  have writes : Writes s t i index {} (.releasing index) :=
    ⟨by rw [← moved]; rfl, by simp [phase, SetPhase.target], nofun⟩
  subst moved
  refine ⟨.leave i index writes.frame leaving (writes.stage_eq.trans ?_) rfl rfl rfl, ?_⟩
  · simp
  · refine shaped_of_writes shaped writes ((shaped i).put_release ⟨by simp, by simp⟩ ?_)
    intro later above
    rcases eq_or_lt_of_le above with rfl | above
    · rw [update_self]
    · rw [update_of_ne (by omega)]
      exact ((shaped i).unregistering phase).2 later above

theorem advance_moves (step : s.advance i answer = some t) :
    Moves s t (.advance i answer) := by
  have still : ∀ {phase}, (s.sets i).phase.target = none → phase.target = none →
      RegionSet.Shaped { s.sets i with phase := phase } →
      Moves s (s.putSet i { s.sets i with phase := phase }) (.advance i answer) :=
    fun before after new => moves_of_phase shaped rfl before after new rfl rfl rfl
  simp only [advance] at step
  generalize phase : (s.sets i).phase = current at step
  cases current with
  | idle => cases step
  | acquiring index =>
    have before : (s.sets i).phase.target = none := by rw [phase]; rfl
    simp only at step
    generalize row_eq : (s.sets i).rows[index]? = found at step
    rcases found with _ | _ | row
    · cases step
      exact still before rfl (shaped i).rest
    · cases step
      exact moves_of_phase shaped rfl before rfl
        ((shaped i).release_from fun _ => (shaped i).outside) rfl rfl rfl
    · simp only at step
      split_ifs at step
      · cases step
        have free := (shaped i).acquiring phase
        have checks : (s.sets i).phase.checks := by rw [phase]; rfl
        exact still before rfl ((shaped i).acquire_from (fun later above => free later (by omega))
          fun _ _ => (shaped i).checked checks)
      · cases step
        exact receiveAnswer_moves shaped phase row_eq
  | registering index =>
    cases step
    exact registerLive_moves shaped phase
  | registeringProvisional index status =>
    cases step
    exact registerProvisional_moves shaped phase
  | releasing left =>
    cases left with
    | zero =>
      cases step
      exact still (by rw [phase]; rfl) rfl (shaped i).rest
    | succ index =>
      cases step
      exact releaseRegion_moves shaped phase
  | unregistering index =>
    cases step
    exact unregisterRegion_moves shaped phase

/-- Every piece of every operation makes one of the moves. -/
theorem act_moves (step : s.act a = some t) : Moves s t a := by
  cases a with
  | beginAcquire i =>
    simp only [act] at step
    split_ifs at step with can
    cases step
    exact beginAcquire_moves shaped can
  | beginRelease i =>
    simp only [act] at step
    split_ifs at step with idle
    cases step
    exact moves_of_phase shaped rfl (by rw [idle]; rfl) rfl
      ((shaped i).release_from fun _ => (shaped i).outside) rfl rfl rfl
  | advance i answer => exact advance_moves shaped step

end

end RegionProcess

end RtRuntime
