import RtRuntime.Basic
import RtRuntime.Checks
import RtRuntime.Interleaving

/-!
# Resident regions

`ResidentRegionSet` acquires its regions one after the other from a memory provider, and releases
all of them again when one acquisition fails or when it is told to.  All sets of the process share
one registry of live allocations, which is locked for each registration and removal only.  An
operation of a set is cut here into the pieces between which another set can run: the return of a
provider call with the checks that follow it, the registration, the call of the provider's release,
and the removal from the registry.

Two histories are kept that the source does not store: the answers of the provider and the calls of
its release, each call with the number of the answer it gives back.
-/

namespace RtRuntime

/-! ## Allocations -/

inductive PageRounding where
  | inherit
  | none
  | basePage
  deriving DecidableEq, Repr

inductive HugePagePreference where
  | inherit
  | disabled
  | prefer
  deriving DecidableEq, Repr

inductive PolicyToggle where
  | inherit
  | disabled
  | enabled
  deriving DecidableEq, Repr

/-- The parts of `MemoryProvider::capabilities` that an acquisition reads. -/
structure MemoryProviderCapabilities where
  guardPages : Bool := false
  explicitHugePages : Bool := false
  deriving DecidableEq, Repr

/-- What an acquisition reads of a `MemoryPolicyReport`. -/
structure MemoryPolicyRow where
  accountedBytes : ℕ
  alignment : ℕ := 0
  pageRounding : PageRounding := .none
  guardBytesBefore : ℕ := 0
  guardBytesAfter : ℕ := 0
  hugePages : HugePagePreference := .disabled
  hugePageFallback : PolicyToggle := .disabled
  traceStorage : Bool := false
  deriving DecidableEq, Repr

/-- `alignof(std::max_align_t)`. -/
def maxAlign : ℕ := 16

/-- The alignment that `acquire` asks for. -/
def MemoryPolicyRow.requiredAlignment (row : MemoryPolicyRow) : ℕ :=
  let alignment := if row.traceStorage then max row.alignment 64 else row.alignment
  if alignment = 0 then maxAlign else alignment

/-- `MemoryProviderAllocation`; tokens and addresses are numbers, zero is the null pointer. -/
structure MemoryProviderAllocation where
  token : ℕ := 0
  allocationBase : ℕ := 0
  allocationBytes : ℕ := 0
  usableData : ℕ := 0
  usableBytes : ℕ := 0
  committedBytes : ℕ := 0
  alignment : ℕ := 0
  actualPageBytes : ℕ := 0
  guardBytesBefore : ℕ := 0
  guardBytesAfter : ℕ := 0
  explicitHugePages : Bool := false
  usedHugePageFallback : Bool := false
  deriving DecidableEq, Repr

/-- The diagnostics of `acquire`, by their messages. -/
inductive AcquireDiagnostic where
  | missingResidentRegion
  | providerAcquisitionFailed (status : Status)
  | nativeAcquisitionFailed (status : Status)
  | duplicateLiveToken
  | undersizedOrMisalignedSpan
  | overflowedAllocationExtent
  | missingRequestedGuards
  | guardsOutsideExtent
  | contradictoryHugePageOutcomes
  | unrequestedHugePageOutcome
  | notPageRounded
  | missingHugePageOutcome
  | fallbackNotAllowed
  | lacksGuardCapability
  | overclaimedExplicitHugePages
  | overlappingLiveRegions
  | tokenOwnedByAnotherRuntime
  | storageOverlapsAnotherRuntime
  deriving DecidableEq, Repr

/-- The failures by which a set finds its new region already in use. -/
def AcquireDiagnostic.conflict : AcquireDiagnostic → Bool
  | .duplicateLiveToken | .overlappingLiveRegions | .tokenOwnedByAnotherRuntime
  | .storageOverlapsAnotherRuntime => true
  | _ => false

/-- `pointer_range` succeeds. -/
def rangeFits (base bytes : ℕ) : Bool := bytes ≤ u64Max - base

/-- Two ranges share an address. -/
def rangesMeet (begin₁ end₁ begin₂ end₂ : ℕ) : Bool := begin₁ < end₂ && begin₂ < end₁

namespace MemoryProviderAllocation

def allocationEnd (allocation : MemoryProviderAllocation) : ℕ :=
  allocation.allocationBase + allocation.allocationBytes

/-- The test of `validate_allocation` against another region of the set. -/
def clashes (allocation other : MemoryProviderAllocation) : Bool :=
  !rangeFits other.allocationBase other.allocationBytes ||
    rangesMeet allocation.allocationBase allocation.allocationEnd other.allocationBase
      other.allocationEnd

/-- `validate_allocation`; `others` are the allocations of the acquired regions of the set. -/
def validate (allocation : MemoryProviderAllocation) (row : MemoryPolicyRow)
    (provider : Option MemoryProviderCapabilities) (others : List MemoryProviderAllocation) :
    Except AcquireDiagnostic Unit := do
  reject (allocation.token = 0 ∨ allocation.allocationBase = 0 ∨ allocation.usableData = 0 ∨
    allocation.allocationBytes = 0 ∨ allocation.usableBytes < row.accountedBytes ∨
    allocation.committedBytes < row.accountedBytes ∨
    allocation.committedBytes > allocation.usableBytes ∨
    allocation.alignment < row.requiredAlignment ∨
    allocation.alignment &&& (allocation.alignment - 1) ≠ 0 ∨
    allocation.usableData &&& (row.requiredAlignment - 1) ≠ 0) .undersizedOrMisalignedSpan
  let usableEnd := allocation.usableData + allocation.usableBytes
  reject (¬ rangeFits allocation.allocationBase allocation.allocationBytes ∨
    ¬ rangeFits allocation.usableData allocation.usableBytes ∨
    allocation.usableData < allocation.allocationBase ∨ usableEnd > allocation.allocationEnd)
    .overflowedAllocationExtent
  reject (allocation.guardBytesBefore < row.guardBytesBefore ∨
    allocation.guardBytesAfter < row.guardBytesAfter) .missingRequestedGuards
  reject (allocation.guardBytesBefore > allocation.usableData - allocation.allocationBase ∨
    allocation.guardBytesAfter > allocation.allocationEnd - usableEnd) .guardsOutsideExtent
  reject (allocation.explicitHugePages ∧ allocation.usedHugePageFallback)
    .contradictoryHugePageOutcomes
  reject (row.hugePages ≠ .prefer ∧
    (allocation.explicitHugePages ∨ allocation.usedHugePageFallback)) .unrequestedHugePageOutcome
  reject (row.pageRounding = .basePage ∧ ¬ allocation.explicitHugePages ∧
    (allocation.actualPageBytes = 0 ∨
      allocation.actualPageBytes &&& (allocation.actualPageBytes - 1) ≠ 0 ∨
      allocation.committedBytes % allocation.actualPageBytes ≠ 0 ∨
      allocation.usableData % allocation.actualPageBytes ≠ 0)) .notPageRounded
  reject (row.hugePages = .prefer ∧ ¬ allocation.explicitHugePages ∧
    ¬ allocation.usedHugePageFallback) .missingHugePageOutcome
  reject (allocation.usedHugePageFallback ∧ row.hugePageFallback ≠ .enabled) .fallbackNotAllowed
  if let some capabilities := provider then
    reject ((allocation.guardBytesBefore ≠ 0 ∨ allocation.guardBytesAfter ≠ 0) ∧
      ¬ capabilities.guardPages) .lacksGuardCapability
    reject (allocation.explicitHugePages ∧ ¬ capabilities.explicitHugePages)
      .overclaimedExplicitHugePages
  reject (others.any allocation.clashes) .overlappingLiveRegions

end MemoryProviderAllocation

/-! ## Sets -/

/-- `ResidentRegionSet::Region`, as far as ownership depends on it; `answer` is the number of the
answer that the allocation came with. -/
structure Region where
  allocation : MemoryProviderAllocation := {}
  acquired : Bool := false
  registered : Bool := false
  answer : ℕ := 0
  deriving DecidableEq, Repr

/-- Where an operation of a set stands. -/
inductive SetPhase where
  | idle
  /-- `acquire_one` of this region comes next -/
  | acquiring (index : ℕ)
  /-- `register_live` of this region comes next -/
  | registering (index : ℕ)
  /-- `register_provisional` of this region comes next, after a failed acquire -/
  | registeringProvisional (index : ℕ) (status : Status)
  /-- `release_one` of the region before this one comes next -/
  | releasing (left : ℕ)
  /-- the provider has been told to release this region, `unregister_live` comes next -/
  | unregistering (index : ℕ)
  deriving DecidableEq, Repr

/-- `ResidentRegionSet`, with the rows of the report that its regions are looked up in. -/
structure RegionSet where
  provider : Option MemoryProviderCapabilities := some {}
  rows : List (Option MemoryPolicyRow)
  regions : ℕ → Region := fun _ => {}
  phase : SetPhase := .idle

namespace RegionSet

variable (set : RegionSet)

def putRegion (index : ℕ) (region : Region) : RegionSet :=
  { set with regions := Function.update set.regions index region }

/-- The allocations of the other acquired regions. -/
def otherAllocations (index : ℕ) : List MemoryProviderAllocation :=
  ((List.range set.rows.length).filter fun other =>
    other ≠ index && (set.regions other).acquired).map fun other => (set.regions other).allocation

/-- `duplicate_live_token`. -/
def duplicateLiveToken (index token : ℕ) : Bool :=
  (set.otherAllocations index).any (·.token = token)

/-- The set is told to acquire: it has no region yet. -/
def canAcquire : Bool :=
  set.phase = .idle && (List.range set.rows.length).all fun index => !(set.regions index).acquired

/-- `release` begins with the last region. -/
def startRelease : RegionSet := { set with phase := .releasing set.rows.length }

end RegionSet

/-! ## The process -/

/-- `LiveResidentAllocation`, with the region it belongs to. -/
structure LiveAllocation (ι : Type) where
  owner : ι × ℕ
  token : ℕ
  allocationBegin : ℕ
  allocationEnd : ℕ
  deriving DecidableEq, Repr

/-- What the provider, or the operating system for a set without one, has answered. -/
structure ProviderAnswer (ι : Type) where
  set : ι
  region : ℕ
  status : Status
  allocation : MemoryProviderAllocation
  deriving DecidableEq, Repr

/-- A call of the provider's release. -/
structure ReleaseCall (ι : Type) where
  set : ι
  token : ℕ
  answer : ℕ
  deriving DecidableEq, Repr

structure RegionProcess (ι : Type) where
  sets : ι → RegionSet
  registry : List (LiveAllocation ι) := []
  answers : List (ProviderAnswer ι) := []
  calls : List (ReleaseCall ι) := []
  failures : List (ι × AcquireDiagnostic) := []

inductive RegistrationResult where
  | registered
  | duplicateToken
  | overlappingSpan
  deriving DecidableEq, Repr

/-- The walk over the registry: the first entry with the token or with a meeting range decides. -/
def registrationResult {ι : Type} (registry : List (LiveAllocation ι)) (token : ℕ)
    (meets : LiveAllocation ι → Bool) : RegistrationResult :=
  match registry with
  | [] => .registered
  | entry :: rest =>
    if entry.token = token then .duplicateToken
    else if meets entry then .overlappingSpan
    else registrationResult rest token meets

namespace Region

variable {ι : Type} (region : Region)

/-- The entry of `register_live`. -/
def liveEntry (owner : ι × ℕ) : LiveAllocation ι where
  owner := owner
  token := region.allocation.token
  allocationBegin := region.allocation.allocationBase
  allocationEnd := region.allocation.allocationEnd

/-- The entry of `register_provisional`: a range that is missing or does not fit is empty. -/
def provisionalEntry (owner : ι × ℕ) : LiveAllocation ι :=
  let known := region.allocation.allocationBase ≠ 0 && region.allocation.allocationBytes ≠ 0 &&
    rangeFits region.allocation.allocationBase region.allocation.allocationBytes
  { owner := owner
    token := region.allocation.token
    allocationBegin := if known then region.allocation.allocationBase else 0
    allocationEnd := if known then region.allocation.allocationEnd else 0 }

end Region

namespace LiveAllocation

variable {ι : Type} (live other : LiveAllocation ι)

/-- The overlap test of `register_live`. -/
def overlaps : Bool :=
  rangesMeet live.allocationBegin live.allocationEnd other.allocationBegin other.allocationEnd

/-- The overlap test of `register_provisional`. -/
def overlapsProvisional : Bool :=
  live.allocationBegin < live.allocationEnd && other.allocationBegin < other.allocationEnd &&
    live.overlaps other

end LiveAllocation

/-- What a provider call can return. -/
abbrev AcquireAnswer : Type := Status × MemoryProviderAllocation

inductive RegionAction (ι : Type) where
  | beginAcquire (set : ι)
  | beginRelease (set : ι)
  /-- the next piece of the set's operation; the answer is read where the piece is a call -/
  | advance (set : ι) (answer : AcquireAnswer)
  deriving DecidableEq, Repr

namespace RegionProcess

variable {ι : Type} [DecidableEq ι] (s : RegionProcess ι)

def putSet (i : ι) (set : RegionSet) : RegionProcess ι :=
  { s with sets := Function.update s.sets i set }

/-- `acquire` returns a failure: the set releases what it has. -/
def fail (i : ι) (set : RegionSet) (diagnostic : AcquireDiagnostic) : RegionProcess ι :=
  { s with failures := (i, diagnostic) :: s.failures }.putSet i set.startRelease

/-- The rest of `acquire_one` before the registration. -/
def checkAnswer (i : ι) (index : ℕ) (row : MemoryPolicyRow) (set : RegionSet)
    (allocation : MemoryProviderAllocation) : RegionProcess ι :=
  match allocation.validate row set.provider (set.otherAllocations index) with
  | .error diagnostic => s.fail i set diagnostic
  | .ok () => s.putSet i { set with phase := .registering index }

/-- The call in `acquire_one` has returned. -/
def receiveAnswer (i : ι) (index : ℕ) (row : MemoryPolicyRow) (answer : AcquireAnswer) :
    RegionProcess ι :=
  let (status, allocation) := answer
  let set := s.sets i
  let region : Region := { allocation := allocation, answer := s.answers.length }
  let adopted := set.putRegion index { region with acquired := true }
  let unowned := set.putRegion index region
  let s : RegionProcess ι := { s with answers := s.answers ++ [⟨i, index, status, allocation⟩] }
  match set.provider with
  | none =>
    if status ≠ .ok then s.fail i set (.nativeAcquisitionFailed status)
    else s.checkAnswer i index row adopted allocation
  | some _ =>
    if status ≠ .ok then
      if allocation.token ≠ 0 then
        s.putSet i { unowned with phase := .registeringProvisional index status }
      else s.fail i unowned (.providerAcquisitionFailed status)
    else if allocation.token = 0 then s.checkAnswer i index row unowned allocation
    else if set.duplicateLiveToken index allocation.token then
      s.fail i unowned .duplicateLiveToken
    else s.checkAnswer i index row adopted allocation

/-- `register_live` and the rest of `acquire_one`.  A token that is already registered is not
released: the region does not count as acquired. -/
def registerLive (i : ι) (index : ℕ) : RegionProcess ι :=
  let set := s.sets i
  let region := set.regions index
  let entry := region.liveEntry (i, index)
  match registrationResult s.registry entry.token entry.overlaps with
  | .registered =>
    { s with registry := entry :: s.registry }.putSet i
      { set.putRegion index { region with registered := true } with
        phase := .acquiring (index + 1) }
  | .duplicateToken =>
    s.fail i (set.putRegion index { region with acquired := false }) .tokenOwnedByAnotherRuntime
  | .overlappingSpan => s.fail i set .storageOverlapsAnotherRuntime

/-- `register_provisional` after a failed acquire: only a token that is registered here is kept for
the release. -/
def registerProvisional (i : ι) (index : ℕ) (status : Status) : RegionProcess ι :=
  let set := s.sets i
  let region := set.regions index
  let entry := region.provisionalEntry (i, index)
  match registrationResult s.registry entry.token entry.overlapsProvisional with
  | .registered =>
    { s with registry := entry :: s.registry }.fail i
      (set.putRegion index { region with acquired := true, registered := true })
      (.providerAcquisitionFailed status)
  | _ => s.fail i set (.providerAcquisitionFailed status)

/-- `release_one` up to the provider's return. -/
def releaseRegion (i : ι) (index : ℕ) : RegionProcess ι :=
  let set := s.sets i
  let region := set.regions index
  if !region.acquired then s.putSet i { set with phase := .releasing index }
  else
    let next := { set with phase := .unregistering index }
    if set.provider.isSome && region.allocation.token ≠ 0 then
      { s with calls := ⟨i, region.allocation.token, region.answer⟩ :: s.calls }.putSet i next
    else s.putSet i next

/-- `unregister_live` and the rest of `release_one`. -/
def unregisterRegion (i : ι) (index : ℕ) : RegionProcess ι :=
  let set := s.sets i
  { s with
    registry :=
      if (set.regions index).registered then s.registry.filter (·.owner ≠ (i, index))
      else s.registry }.putSet i
    { set.putRegion index {} with phase := .releasing index }

/-- The next piece of the operation of a set. -/
def advance (i : ι) (answer : AcquireAnswer) : Option (RegionProcess ι) :=
  let set := s.sets i
  match set.phase with
  | .idle => none
  | .acquiring index =>
    match set.rows[index]? with
    | none => some (s.putSet i { set with phase := .idle })
    | some none => some (s.fail i set .missingResidentRegion)
    | some (some row) =>
      if row.accountedBytes = 0 then some (s.putSet i { set with phase := .acquiring (index + 1) })
      else some (s.receiveAnswer i index row answer)
  | .registering index => some (s.registerLive i index)
  | .registeringProvisional index status => some (s.registerProvisional i index status)
  | .releasing 0 => some (s.putSet i { set with phase := .idle })
  | .releasing (index + 1) => some (s.releaseRegion i index)
  | .unregistering index => some (s.unregisterRegion i index)

def act (s : RegionProcess ι) : RegionAction ι → Option (RegionProcess ι)
  | .beginAcquire i =>
    if (s.sets i).canAcquire then some (s.putSet i { s.sets i with phase := .acquiring 0 }) else none
  | .beginRelease i =>
    if (s.sets i).phase = .idle then some (s.putSet i (s.sets i).startRelease) else none
  | .advance i answer => s.advance i answer

/-- The process before the first operation: no set has a region. -/
structure Initial (s : RegionProcess ι) : Prop where
  regions (i : ι) (index : ℕ) : (s.sets i).regions index = {}
  idle (i : ι) : (s.sets i).phase = .idle
  registry : s.registry = []
  answers : s.answers = []
  calls : s.calls = []
  failures : s.failures = []

end RegionProcess

end RtRuntime
