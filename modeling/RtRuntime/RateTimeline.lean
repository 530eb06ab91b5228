import RtRuntime.Basic
import RtRuntime.Checks

/-!
# The rate timeline compiler

`compile_rate_timeline` turns rate domains and phase bindings into an epoch-zero
reference plan over one supercycle `[0, S)`, where `S` is the least common multiple
of the periods: one reference release per domain, sequence number, bound phase and
substep, sorted by release time, domain, compiled phase position and substep.
-/

namespace RtRuntime

/-! ## Inputs and results -/

/-- `RateCriticality`; a code outside the enumeration is `unknown`. -/
inductive RateCriticality where
  | background
  | normal
  | critical
  | unknown (code : UInt8)
  deriving DecidableEq, Repr

/-- `RateLateAction`; a code outside the enumeration is `unknown`. -/
inductive RateLateAction where
  | skip
  | boundedCatchUp
  | hold
  | degrade
  | fail
  | unknown (code : UInt8)
  deriving DecidableEq, Repr

/-- `RatePhaseKind`; a code outside the enumeration is `unknown`. -/
inductive RatePhaseKind where
  | cpu
  | device
  | unknown (code : UInt8)
  deriving DecidableEq, Repr

structure RateDomainSpec where
  /-- the characters of the domain's name -/
  name : List Char := []
  periodNs : UInt64 := 0
  substepCount : UInt32 := 0
  relativeDeadlineNs : UInt64 := 0
  budgetWcetNs : UInt64 := 0
  criticality : RateCriticality := .normal
  optional : Bool := false
  lateAction : RateLateAction := .fail
  boundedCatchUpLimit : UInt32 := 0
  deriving DecidableEq, Repr

structure RateBindingSpec where
  phase : PhaseHandle := {}
  domain : RateDomainHandle := {}
  phaseKind : RatePhaseKind := .cpu
  deriving DecidableEq, Repr

structure CompiledRateDomain where
  domain : RateDomainHandle := {}
  name : List Char := []
  registrationIndex : ℕ := 0
  periodNs : UInt64 := 0
  substepCount : UInt32 := 0
  relativeDeadlineNs : UInt64 := 0
  budgetWcetNs : UInt64 := 0
  criticality : RateCriticality := .normal
  optional : Bool := false
  releasesPerSupercycle : UInt64 := 0
  periodRatioNumerator : UInt64 := 0
  periodRatioDenominator : UInt64 := 0
  lateAction : RateLateAction := .fail
  boundedCatchUpLimit : UInt32 := 0
  deriving DecidableEq, Repr

structure CompiledRateBinding where
  phase : PhaseHandle := {}
  domain : RateDomainHandle := {}
  phaseKind : RatePhaseKind := .cpu
  compiledPhaseIndex : ℕ := 0
  deriving DecidableEq, Repr

structure ReferenceRelease where
  releaseTimeNs : UInt64 := 0
  domain : RateDomainHandle := {}
  domainRegistrationIndex : ℕ := 0
  domainReleaseSequence : UInt64 := 0
  phase : PhaseHandle := {}
  phaseKind : RatePhaseKind := .cpu
  compiledPhaseIndex : ℕ := 0
  substepOrdinal : UInt32 := 0
  substepCount : UInt32 := 0
  relativeDeadlineNs : UInt64 := 0
  deadlineTimeNs : UInt64 := 0
  budgetWcetNs : UInt64 := 0
  criticality : RateCriticality := .normal
  optional : Bool := false
  lateAction : RateLateAction := .fail
  boundedCatchUpLimit : UInt32 := 0
  deriving DecidableEq, Repr

structure CompiledRatePlan where
  supercycleNs : UInt64 := 0
  domains : List CompiledRateDomain := []
  bindings : List CompiledRateBinding := []
  releases : List ReferenceRelease := []
  deriving DecidableEq, Repr

/-- A status with the message of the check that produced it. -/
structure RateCompileDiagnostic where
  status : Status := .ok
  message : Option String := none
  deriving DecidableEq, Repr

/-- The diagnostic of a failed check. -/
def rateFailure (status : Status) (message : String) : RateCompileDiagnostic :=
  { status := status, message := some message }

def rateDomainCapacity : ℕ := 64
def rateDomainNameCapacity : ℕ := 64
def rateDomainSubstepCapacity : ℕ := 64
def referenceReleaseCapacity : ℕ := 65536

/-! ## Ownership of the phases -/

/-- `binding_by_phase` and `phases_per_domain`; an entry not yet written is `none`. -/
structure BindingTables where
  bindingByPhase : ℕ → Option ℕ := fun _ => none
  phasesPerDomain : ℕ → ℕ := fun _ => 0

def RateDomainHandle.belongs (graphOwner : UInt32) (domainCount : ℕ) (d : RateDomainHandle) :
    Bool :=
  d.valid && d.owner = graphOwner && d.index < domainCount

def RateBindingSpec.wellFormed (graphOwner : UInt32) (phaseCount domainCount : ℕ)
    (b : RateBindingSpec) : Bool :=
  b.phase.valid && b.phase.owner = graphOwner && b.phase.index < phaseCount &&
    b.domain.belongs graphOwner domainCount &&
    (b.phaseKind = .cpu || b.phaseKind = .device)

/-- One turn of the loop over the bindings, at position `index`. -/
def recordBinding (graphOwner : UInt32) (phaseCount domainCount : ℕ) (t : BindingTables)
    (entry : RateBindingSpec × ℕ) : Except RateCompileDiagnostic BindingTables := do
  let (binding, index) := entry
  reject (binding.wellFormed graphOwner phaseCount domainCount = false)
    (rateFailure .invalidHandle "rate binding contains an invalid or foreign reference")
  reject ((t.bindingByPhase binding.phase.index).isSome)
    (rateFailure .invalidConfig "a phase is bound to more than one rate domain")
  return {
    bindingByPhase := Function.update t.bindingByPhase binding.phase.index (some index)
    phasesPerDomain := Function.update t.phasesPerDomain binding.domain.index
      (t.phasesPerDomain binding.domain.index + 1) }

/-! ## The supercycle -/

def validNameCharacter (character : Char) : Bool :=
  ('a' ≤ character && character ≤ 'z') || ('A' ≤ character && character ≤ 'Z') ||
    ('0' ≤ character && character ≤ '9') || character = '.' || character = '_' ||
    character = ':' || character = '/' || character = '@' || character = '-'

/-- `valid_name`. -/
def validName (name : List Char) : Bool :=
  !name.isEmpty && name.length < rateDomainNameCapacity && name.all validNameCharacter

def RateDomainSpec.wellFormed (d : RateDomainSpec) : Bool :=
  d.periodNs ≠ 0 && d.substepCount ≠ 0 && d.substepCount.toNat ≤ rateDomainSubstepCapacity &&
    validName d.name &&
    (d.criticality = .background || d.criticality = .normal || d.criticality = .critical)

/-- One turn of the loop over the domains that folds the least common multiple. -/
def extendSupercycle (domains : List RateDomainSpec) (supercycle : ℕ)
    (entry : RateDomainSpec × ℕ) : Except RateCompileDiagnostic ℕ := do
  let (domain, index) := entry
  reject (domain.wellFormed = false)
    (rateFailure .invalidConfig
      "rate domain contains invalid period, substeps, deadline, or criticality")
  reject ((domains.take index).any (fun earlier => earlier.name = domain.name))
    (rateFailure .invalidConfig "rate-domain names must be unique")
  orReject (checkedLcm supercycle domain.periodNs.toNat)
    (rateFailure .capacityExceeded "rate supercycle is not representable")

/-- The number of entries of one domain, added to the count so far. -/
def checkedReleaseCount (supercycle phases : ℕ) (domain : RateDomainSpec) (releaseCount : ℕ) :
    Option ℕ := do
  let entries ← checkedMultiply (supercycle / domain.periodNs.toNat) phases
  let entries ← checkedMultiply entries domain.substepCount.toNat
  checkedAdd releaseCount entries

/-- One turn of the loop that bounds the size of the release table. -/
def countReleases (supercycle : ℕ) (t : BindingTables) (releaseCount : ℕ)
    (entry : RateDomainSpec × ℕ) : Except RateCompileDiagnostic ℕ := do
  let failure := rateFailure .capacityExceeded "reference-release capacity exceeded"
  let (domain, index) := entry
  let count ← orReject
    (checkedReleaseCount supercycle (t.phasesPerDomain index) domain releaseCount) failure
  reject (count > referenceReleaseCapacity) failure
  return count

/-! ## The candidate plan -/

def compileDomain (graphOwner : UInt32) (supercycle referencePeriod : ℕ)
    (entry : RateDomainSpec × ℕ) : CompiledRateDomain :=
  let (source, index) := entry
  let ratioGcd := Nat.gcd source.periodNs.toNat referencePeriod
  { domain := RateDomainHandle.make graphOwner (UInt32.ofNat index)
    name := source.name
    registrationIndex := index
    periodNs := source.periodNs
    substepCount := source.substepCount
    relativeDeadlineNs := source.relativeDeadlineNs
    budgetWcetNs := source.budgetWcetNs
    criticality := source.criticality
    optional := source.optional
    lateAction := source.lateAction
    boundedCatchUpLimit := source.boundedCatchUpLimit
    releasesPerSupercycle := UInt64.ofNat (supercycle / source.periodNs.toNat)
    periodRatioNumerator := UInt64.ofNat (source.periodNs.toNat / ratioGcd)
    periodRatioDenominator := UInt64.ofNat (referencePeriod / ratioGcd) }

/-- `compiled_index_by_phase` and `candidate.bindings`. -/
structure OrderedBindings where
  compiledIndexByPhase : ℕ → Option ℕ := fun _ => none
  bindings : List CompiledRateBinding := []

/-- One turn of the loop over the compiled order, at position `index`. -/
def orderBinding (graphOwner : UInt32) (phaseCount : ℕ) (bindings : List RateBindingSpec)
    (t : BindingTables) (s : OrderedBindings) (entry : PhaseHandle × ℕ) :
    Except RateCompileDiagnostic OrderedBindings := do
  let (phase, index) := entry
  reject (!phase.valid || phase.owner ≠ graphOwner || !(phase.index < phaseCount))
    (rateFailure .invalidHandle "compiled phase order contains an invalid reference")
  reject ((s.compiledIndexByPhase phase.index).isSome)
    (rateFailure .invalidConfig "compiled phase order is not a permutation")
  let binding := bindings.getD ((t.bindingByPhase phase.index).getD 0) {}
  return {
    compiledIndexByPhase := Function.update s.compiledIndexByPhase phase.index (some index)
    bindings := s.bindings ++ [⟨phase, binding.domain, binding.phaseKind, index⟩] }

/-! ## The release table -/

def makeRelease (domain : RateDomainSpec) (domainIndex sequence releaseTime deadlineTime : ℕ)
    (binding : CompiledRateBinding) (substep : ℕ) : ReferenceRelease where
  releaseTimeNs := UInt64.ofNat releaseTime
  domain := binding.domain
  domainRegistrationIndex := domainIndex
  domainReleaseSequence := UInt64.ofNat sequence
  phase := binding.phase
  phaseKind := binding.phaseKind
  compiledPhaseIndex := binding.compiledPhaseIndex
  substepOrdinal := UInt32.ofNat substep
  substepCount := domain.substepCount
  relativeDeadlineNs := domain.relativeDeadlineNs
  deadlineTimeNs := UInt64.ofNat deadlineTime
  budgetWcetNs := domain.budgetWcetNs
  criticality := domain.criticality
  optional := domain.optional
  lateAction := domain.lateAction
  boundedCatchUpLimit := domain.boundedCatchUpLimit

/-- The entries of one release of one domain: every bound phase, every substep. -/
def releaseEntries (bindings : List CompiledRateBinding) (domain : RateDomainSpec)
    (domainIndex sequence : ℕ) : Except RateCompileDiagnostic (List ReferenceRelease) := do
  let releaseTime ← orReject (checkedMultiply sequence domain.periodNs.toNat)
    (rateFailure .capacityExceeded "rate release time is not representable")
  let deadlineTime ← orReject (checkedAdd releaseTime domain.relativeDeadlineNs.toNat)
    (rateFailure .capacityExceeded "rate release deadline is not representable")
  return (bindings.filter (fun binding => binding.domain.index = domainIndex)).flatMap
    fun binding => (List.range domain.substepCount.toNat).map
      (makeRelease domain domainIndex sequence releaseTime deadlineTime binding)

/-- All entries, domain by domain and sequence by sequence. -/
def generateReleases (supercycle : ℕ) (domains : List RateDomainSpec)
    (bindings : List CompiledRateBinding) :
    Except RateCompileDiagnostic (List ReferenceRelease) :=
  collectM (fun entry : RateDomainSpec × ℕ =>
    collectM (releaseEntries bindings entry.1 entry.2)
      (List.range (supercycle / entry.1.periodNs.toNat))) domains.zipIdx

/-- The key the release table is sorted by. -/
def ReferenceRelease.key (r : ReferenceRelease) : ℕ ×ₗ ℕ ×ₗ ℕ ×ₗ ℕ :=
  toLex (r.releaseTimeNs.toNat, toLex (r.domainRegistrationIndex,
    toLex (r.compiledPhaseIndex, r.substepOrdinal.toNat)))

/-- `std::sort` of the release table. -/
def sortReleases (releases : List ReferenceRelease) : List ReferenceRelease :=
  releases.insertionSort (fun a b => a.key ≤ b.key)

/-! ## The compiler -/

/-- The body of `compile_rate_timeline` for at least one domain. -/
def compileTimelinePlan (graphOwner : UInt32) (phaseCount : ℕ) (compiledOrder : List PhaseHandle)
    (domains : List RateDomainSpec) (bindings : List RateBindingSpec) :
    Except RateCompileDiagnostic CompiledRatePlan := do
  reject (domains.length > rateDomainCapacity)
    (rateFailure .capacityExceeded "rate-domain capacity exceeded")
  reject (phaseCount = 0 ∨ compiledOrder.length ≠ phaseCount ∨ bindings.length ≠ phaseCount)
    (rateFailure .invalidConfig "enabled rate model requires exactly one binding per phase")
  let tables ← bindings.zipIdx.foldlM (recordBinding graphOwner phaseCount domains.length) {}
  reject ((∃ phase < phaseCount, tables.bindingByPhase phase = none) ∨
      ∃ domain < domains.length, tables.phasesPerDomain domain = 0)
    (rateFailure .invalidConfig "rate model has a missing phase or empty domain ownership")
  let supercycle ← domains.zipIdx.foldlM (extendSupercycle domains) 1
  let _releaseCount ← domains.zipIdx.foldlM (countReleases supercycle tables) 0
  let referencePeriod := (domains.headD {}).periodNs.toNat
  let ordered ← compiledOrder.zipIdx.foldlM (orderBinding graphOwner phaseCount bindings tables) {}
  let releases ← generateReleases supercycle domains ordered.bindings
  return {
    supercycleNs := UInt64.ofNat supercycle
    domains := domains.zipIdx.map (compileDomain graphOwner supercycle referencePeriod)
    bindings := ordered.bindings
    releases := sortReleases releases }

structure RateCompileResult where
  status : Status
  output : CompiledRatePlan
  diagnostic : RateCompileDiagnostic
  deriving DecidableEq, Repr

/-- `compile_rate_timeline`: `output` is replaced only after complete validation. -/
def compileRateTimeline (graphOwner : UInt32) (phaseCount : ℕ) (compiledOrder : List PhaseHandle)
    (domains : List RateDomainSpec) (bindings : List RateBindingSpec)
    (output : CompiledRatePlan) : RateCompileResult :=
  if domains.isEmpty then
    if !bindings.isEmpty then
      let diagnostic :=
        rateFailure .invalidConfig "rate bindings require at least one rate domain"
      ⟨diagnostic.status, output, diagnostic⟩
    else ⟨.ok, {}, {}⟩
  else
    match compileTimelinePlan graphOwner phaseCount compiledOrder domains bindings with
    | .ok candidate => ⟨.ok, candidate, {}⟩
    | .error diagnostic => ⟨diagnostic.status, output, diagnostic⟩

end RtRuntime
