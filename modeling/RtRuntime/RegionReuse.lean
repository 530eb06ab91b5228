import RtRuntime.RegionLedger

/-!
# A provider that reuses what it gets back

The provider hands a token or a range of addresses out again only after it has been asked to release
it.  Nothing that the sets still have is then handed out twice, and no acquire meets a token or a
range in use, except in one window: `release_one` asks the provider to release a region before
`unregister_live` takes it from the registry, so the next owner can come to register it while the
entry of the former owner is still there.
-/

namespace RtRuntime

open List

/-- The two allocations have one token, or an address in common. -/
def MemoryProviderAllocation.Shares (allocation other : MemoryProviderAllocation) : Prop :=
  allocation.token = other.token ∨
    allocation.allocationBytes ≠ 0 ∧ other.allocationBytes ≠ 0 ∧
      rangesMeet allocation.allocationBase allocation.allocationEnd other.allocationBase
        other.allocationEnd

instance (allocation other : MemoryProviderAllocation) : Decidable (allocation.Shares other) :=
  inferInstanceAs (Decidable (_ ∨ _))

variable {allocation : MemoryProviderAllocation}

theorem MemoryProviderAllocation.Shares.symm {other : MemoryProviderAllocation}
    (shares : allocation.Shares other) : other.Shares allocation := by
  rcases shares with token | ⟨bytes, bytes', meets⟩
  · exact .inl token.symm
  · refine .inr ⟨bytes', bytes, ?_⟩
    simp only [rangesMeet, Bool.and_eq_true, decide_eq_true_eq] at meets ⊢
    exact meets.symm

/-- How many pieces a release has left at most. -/
def SetPhase.remaining : SetPhase → ℕ
  | .releasing left => 2 * left + 1
  | .unregistering index => 2 * index + 2
  | _ => 0

/-- The last check of `validate_allocation` is the only one that finds a region in use. -/
theorem MemoryProviderAllocation.validate_conflict {row : MemoryPolicyRow}
    {provider : Option MemoryProviderCapabilities} {others : List MemoryProviderAllocation}
    {diagnostic : AcquireDiagnostic}
    (failed : allocation.validate row provider others = .error diagnostic)
    (conflict : diagnostic.conflict) :
    allocation.token ≠ 0 ∧ allocation.allocationBytes ≠ 0 ∧ others.any allocation.clashes := by
  unfold validate at failed
  rcases reject_bind_eq_error.mp failed with ⟨-, rfl⟩ | ⟨span, rest⟩
  · cases conflict
  push Not at span
  refine ⟨span.1, span.2.2.2.1, ?_⟩
  refine (?_ : ErrorsSatisfy (fun d : AcquireDiagnostic =>
    d.conflict → others.any allocation.clashes) _) diagnostic rest conflict
  refine .check nofun <| .check nofun <|
    .check nofun <| .check nofun <|
    .check nofun <| .check nofun <|
    .check nofun <| .check nofun ?_
  cases provider with
  | none => exact .reject fun clash _ => clash
  | some capabilities =>
    exact .check nofun <| .check nofun <|
      .reject fun clash _ => clash

namespace RegionProcess

variable {ι : Type} {s t : RegionProcess ι} {a : RegionAction ι}

/-! ## The discipline of the provider -/

/-- The answer with this number has handed out this allocation, and the provider has not been asked
to release it. -/
def Outstanding (s : RegionProcess ι) (number : ℕ) (allocation : MemoryProviderAllocation) : Prop :=
  (∃ given, s.answers[number]? = some given ∧ given.allocation = allocation) ∧
    allocation.token ≠ 0 ∧ number ∉ s.calls.map (·.answer)

/-- What the provider hands out is not outstanding. -/
def DisciplinedIn (s : RegionProcess ι) (answer : AcquireAnswer) : SetPhase → Prop
  | .acquiring _ => answer.2.token ≠ 0 → ∀ number < s.answers.length,
    number ∉ s.calls.map (·.answer) → ∀ given ∈ s.answers[number]?,
      given.allocation.token ≠ 0 → ¬ answer.2.Shares given.allocation
  | _ => True

def Disciplined (s : RegionProcess ι) : RegionAction ι → Prop
  | .advance i answer => s.DisciplinedIn answer (s.sets i).phase
  | _ => True

/-- No entry of a region that the provider was asked to release has the token or meets the range of
the region that is registered next. -/
def ClearOf (s : RegionProcess ι) (allocation : MemoryProviderAllocation) : Prop :=
  ∀ live ∈ s.registry, s.stage live.owner.1 live.owner.2 = .leaving →
    live.token ≠ allocation.token ∧
      ¬ rangesMeet allocation.allocationBase allocation.allocationEnd live.allocationBegin
        live.allocationEnd

def SettledIn (s : RegionProcess ι) (i : ι) : SetPhase → Prop
  | .registering index | .registeringProvisional index _ =>
    s.ClearOf (s.region i index).allocation
  | _ => True

/-- The former owner has left the registry before the next one registers. -/
def Settled (s : RegionProcess ι) : RegionAction ι → Prop
  | .advance i _ => s.SettledIn i (s.sets i).phase
  | _ => True

section Decidable

instance (answer : AcquireAnswer) : (phase : SetPhase) → Decidable (s.DisciplinedIn answer phase)
  | .acquiring _ => inferInstanceAs (Decidable (_ → _))
  | .idle | .registering _ | .registeringProvisional _ _ | .releasing _ | .unregistering _ =>
    isTrue trivial

instance : (a : RegionAction ι) → Decidable (s.Disciplined a)
  | .advance _ answer => inferInstanceAs (Decidable (s.DisciplinedIn answer _))
  | .beginAcquire _ | .beginRelease _ => isTrue trivial

instance (allocation : MemoryProviderAllocation) : Decidable (s.ClearOf allocation) :=
  inferInstanceAs (Decidable (∀ _ ∈ _, _))

instance (i : ι) : (phase : SetPhase) → Decidable (s.SettledIn i phase)
  | .registering _ | .registeringProvisional _ _ => inferInstanceAs (Decidable (s.ClearOf _))
  | .idle | .acquiring _ | .releasing _ | .unregistering _ => isTrue trivial

instance : (a : RegionAction ι) → Decidable (s.Settled a)
  | .advance i _ => inferInstanceAs (Decidable (s.SettledIn i _))
  | .beginAcquire _ | .beginRelease _ => isTrue trivial

end Decidable

/-! ## Nothing is handed out twice -/

/-- Two outstanding answers have nothing in common. -/
def Apart (s : RegionProcess ι) : Prop :=
  ∀ number other allocation allocation', number ≠ other → s.Outstanding number allocation →
    s.Outstanding other allocation' → ¬ allocation.Shares allocation'

/-- A region in use, of which the provider has not been told. -/
def InUse (s : RegionProcess ι) (i : ι) (index : ℕ) : Prop :=
  s.stage i index ≠ .free ∧ s.stage i index ≠ .leaving

/-- The regions of sets with a provider have tokens. -/
def Tokened (s : RegionProcess ι) : Prop :=
  ∀ i index, s.stage i index ≠ .free → (s.region i index).allocation.token ≠ 0

variable {index : ℕ} {i : ι}

theorem Accounts.outstanding (accounts : s.Accounts) (tokened : s.Tokened)
    (used : s.InUse i index) :
    s.Outstanding (s.region i index).answer (s.region i index).allocation := by
  obtain ⟨status, given⟩ := accounts.answered used.1
  exact ⟨⟨_, given, rfl⟩, tokened i index used.1, accounts.uncalled used.1 used.2⟩

variable {answer : AcquireAnswer} {number : ℕ}

/-- A new allocation has nothing in common with an outstanding one. -/
theorem Disciplined.not_shares (disciplined : s.Disciplined (.advance i answer))
    (phase : (s.sets i).phase = .acquiring index) (token : answer.2.token ≠ 0)
    (outstanding : s.Outstanding number allocation) : ¬ answer.2.Shares allocation := by
  obtain ⟨⟨given, found, rfl⟩, token', uncalled⟩ := outstanding
  simp only [Disciplined, phase, DisciplinedIn] at disciplined
  exact disciplined token number (List.getElem?_eq_some_iff.mp found).1 uncalled given found token'

/-! ## No conflict -/

/-- A region that is registered next meets no registered one. -/
theorem not_conflict (ledger : s.Ledger) (tokened : s.Tokened) (apart : s.Apart)
    (used : s.InUse i index) (unregistered : (s.region i index).registered = false)
    (clear : s.ClearOf (s.region i index).allocation) :
    ¬ s.Conflict (s.region i index).allocation := by
  rintro ⟨live, mem, conflict⟩
  obtain ⟨registered, token, covers⟩ := ledger.books.entry mem
  have other : (s.region live.owner.1 live.owner.2).answer ≠ (s.region i index).answer := by
    intro same
    have used' : s.stage live.owner.1 live.owner.2 ≠ .free := by
      rcases stage_of_registered ledger.shaped registered with is | is <;> simp [is]
    cases ledger.accounts.region_of_answer used' used.1 same
    rw [unregistered] at registered
    cases registered
  rcases stage_of_registered ledger.shaped registered with owned | leaving
  · -- an owned region is outstanding, like the new one
    have out := ledger.accounts.outstanding tokened used
    have out' := ledger.accounts.outstanding tokened
      (⟨by simp [owned], by simp [owned]⟩ : s.InUse live.owner.1 live.owner.2)
    apply apart _ _ _ _ other.symm out out'
    rcases conflict with same | ⟨bytes, meets⟩
    · exact .inl (by rw [token, same])
    · rcases covers with ⟨first, last, bytes'⟩ | ⟨first, last⟩
      · rw [first, last] at meets
        exact .inr ⟨bytes, bytes', meets⟩
      · simp [rangesMeet, first, last] at meets
  · obtain ⟨differs, clear⟩ := clear live mem leaving
    rcases conflict with same | ⟨-, meets⟩
    · exact differs same
    · exact clear meets

/-- While a set acquires, its acquired regions are in use. -/
theorem inUse_of_acquired {other : ℕ} (phase : (s.sets i).phase = .acquiring index)
    (acquired : ((s.sets i).regions other).acquired) : s.InUse i other := by
  have elsewhere : (s.sets i).phase.target ≠ some other := by
    rw [phase]
    exact nofun
  unfold InUse stage RegionSet.stage
  rw [Region.stageIn_elsewhere _ elsewhere, if_neg (by simp [acquired])]
  split_ifs <;> simp

theorem mem_otherAllocations {set : RegionSet} (mem : allocation ∈ set.otherAllocations index) :
    ∃ other, (set.regions other).acquired ∧ (set.regions other).allocation = allocation := by
  simp only [RegionSet.otherAllocations, mem_map, mem_filter, Bool.and_eq_true] at mem
  obtain ⟨other, ⟨-, -, acquired⟩, rfl⟩ := mem
  exact ⟨other, acquired, rfl⟩

section Own

variable (ledger : s.Ledger) (tokened : s.Tokened) (disciplined : s.Disciplined (.advance i answer))
  (phase : (s.sets i).phase = .acquiring index) (token : answer.2.token ≠ 0)

include ledger tokened disciplined phase token

/-- The set has no region with anything in common with the answer. -/
theorem not_shares_own (mem : allocation ∈ (s.sets i).otherAllocations index) :
    ¬ answer.2.Shares allocation := by
  obtain ⟨other, acquired, rfl⟩ := mem_otherAllocations mem
  exact disciplined.not_shares phase token
    (ledger.accounts.outstanding tokened (inUse_of_acquired phase acquired))

theorem not_duplicate : ¬ (s.sets i).duplicateLiveToken index answer.2.token := by
  intro duplicate
  obtain ⟨allocation, mem, same⟩ := any_eq_true.mp duplicate
  exact not_shares_own ledger tokened disciplined phase token mem
    (.inl (of_decide_eq_true same).symm)

theorem not_clashes (bytes : answer.2.allocationBytes ≠ 0) :
    ¬ ((s.sets i).otherAllocations index).any answer.2.clashes := by
  intro clash
  obtain ⟨allocation, mem, clashes⟩ := any_eq_true.mp clash
  apply not_shares_own ledger tokened disciplined phase token mem
  obtain ⟨other, acquired, rfl⟩ := mem_otherAllocations mem
  have ranged := (ledger.shaped i).checked (by rw [phase]; rfl) acquired
  rw [MemoryProviderAllocation.clashes, ranged.2, Bool.not_true, Bool.false_or] at clashes
  exact .inr ⟨bytes, ranged.1, clashes⟩

end Own

/-! ## Orderly processes -/

/-- All sets have a provider. -/
def Provided (s : RegionProcess ι) : Prop := ∀ i, (s.sets i).provider ≠ none

/-- Every token that was handed out is still with its set, or was given back. -/
def Custody (s : RegionProcess ι) : Prop :=
  ∀ number given, s.answers[number]? = some given → given.allocation.token ≠ 0 →
    number ∈ s.calls.map (·.answer) ∨
      ∃ index, s.InUse given.set index ∧ (s.region given.set index).answer = number

/-- No acquire has failed because its region was in use. -/
def Peaceful (s : RegionProcess ι) : Prop := ∀ failure ∈ s.failures, failure.2.conflict = false

/-- What holds in every state of a disciplined and settled run. -/
structure Orderly (s : RegionProcess ι) : Prop where
  ledger : s.Ledger
  provided : s.Provided
  tokened : s.Tokened
  apart : s.Apart
  custody : s.Custody
  peaceful : s.Peaceful

/-- The region of a set that registers is not in conflict. -/
theorem not_conflict_registering (orderly : s.Orderly) (settled : s.Settled (.advance i answer))
    (phase : (s.sets i).phase = .registering index) :
    ¬ s.Conflict (s.region i index).allocation := by
  obtain ⟨acquired, unregistered, -⟩ := (orderly.ledger.shaped i).registering phase
  have pending : s.stage i index = .pending := by
    simp [stage, RegionSet.stage, phase, acquired, unregistered]
  refine not_conflict orderly.ledger orderly.tokened orderly.apart
    ⟨by simp [pending], by simp [pending]⟩ unregistered ?_
  simpa only [Settled, phase, SettledIn] using settled

theorem Initial.orderly (initial : s.Initial) (provided : s.Provided) : s.Orderly where
  ledger := initial.ledger
  provided := provided
  tokened := by
    intro i index used
    simp [stage, RegionSet.stage, initial.regions, initial.idle] at used
  apart := by
    rintro number other allocation allocation' - ⟨⟨given, found, -⟩, -⟩
    simp [initial.answers] at found
  custody := by
    intro number given found
    simp [initial.answers] at found
  peaceful := by simp [Peaceful, initial.failures]

/-- An answer whose set has no region in use was given back. -/
theorem Orderly.count_of_free (orderly : s.Orderly) {given : ProviderAnswer ι}
    (found : s.answers[number]? = some given) (token : given.allocation.token ≠ 0)
    (free : ∀ index, ¬ s.InUse given.set index) :
    (s.calls.map (·.answer)).count number = 1 := by
  rcases orderly.custody number given found token with called | ⟨index, used, -⟩
  · exact count_eq_one_of_mem orderly.ledger.accounts.once called
  · exact absurd used (free index)

section Steps

variable [DecidableEq ι]

section

variable (effect : Effect s t a)
include effect

/-- An answer was there before, or has just been given. -/
theorem Effect.answer_cases {given : ProviderAnswer ι} (found : t.answers[number]? = some given) :
    s.answers[number]? = some given ∨ number = s.answers.length ∧ ∃ i answer index,
      a = .advance i answer ∧ (s.sets i).phase = .acquiring index ∧
        given = ⟨i, index, answer.1, answer.2⟩ := by
  rcases effect.answers_cases with same | ⟨i, answer, index, rfl, phase, answers⟩
  · exact .inl (same ▸ found)
  · rw [answers] at found
    rcases getElem?_concat_eq_some.mp found with old | ⟨last, rfl⟩
    · exact .inl old
    · exact .inr ⟨last, i, answer, index, rfl, phase, rfl⟩

theorem Effect.calls_grow (uncalled : number ∉ t.calls.map (·.answer)) :
    number ∉ s.calls.map (·.answer) := by
  rcases effect.calls_cases with calls | ⟨i, index, -, -, -, calls⟩
  · rwa [calls] at uncalled
  · rw [calls, map_cons, mem_cons, not_or] at uncalled
    exact uncalled.2

/-- What is outstanding was so before, or has just been handed out. -/
theorem Effect.outstanding_cases (outstanding : t.Outstanding number allocation) :
    s.Outstanding number allocation ∨
      number = s.answers.length ∧ ∃ i answer index, a = .advance i answer ∧
        (s.sets i).phase = .acquiring index ∧ allocation = answer.2 := by
  obtain ⟨⟨given, found, rfl⟩, token, uncalled⟩ := outstanding
  have uncalled := effect.calls_grow uncalled
  rcases effect.answer_cases found with old | ⟨last, i, answer, index, rfl, phase, rfl⟩
  · exact .inl ⟨⟨given, old, rfl⟩, token, uncalled⟩
  · exact .inr ⟨last, i, answer, index, rfl, phase, rfl⟩

theorem Effect.provider_eq (j : ι) : (t.sets j).provider = (s.sets j).provider := by
  cases effect <;> exact Frame.provider (by assumption) j

end

theorem Apart.step (apart : s.Apart) (disciplined : s.Disciplined a) (effect : Effect s t a) :
    t.Apart := by
  intro number other allocation allocation' ne out out'
  have token := out.2.1
  have token' := out'.2.1
  rcases effect.outstanding_cases out with old | ⟨last, i, answer, index, rfl, phase, rfl⟩
  · rcases effect.outstanding_cases out' with old' | ⟨-, i, answer, index, rfl, phase, rfl⟩
    · exact apart number other allocation allocation' ne old old'
    · exact fun shares => disciplined.not_shares phase token' old shares.symm
  · rcases effect.outstanding_cases out' with old' | ⟨last', -⟩
    · exact disciplined.not_shares phase token old'
    · exact absurd (last.trans last'.symm) ne

theorem Provided.step (provided : s.Provided) (effect : Effect s t a) : t.Provided := by
  intro i
  rw [effect.provider_eq]
  exact provided i

theorem Tokened.step (tokened : s.Tokened) (provided : s.Provided) (effect : Effect s t a) :
    t.Tokened := by
  intro j index used
  rcases effect.origin used with ⟨before, -, allocation, -⟩ | ⟨status, -, -, -, token⟩
  · rw [allocation]
    exact tokened j index before
  · exact token.resolve_left (provided j)

/-! ## Custody -/

/-- What becomes of a region in use. -/
theorem Effect.use_cases (effect : Effect s t a) {j : ι} (used : s.InUse j index) :
    (t.InUse j index ∧ (t.region j index).answer = (s.region j index).answer) ∨
      (s.region j index).answer ∈ t.calls.map (·.answer) ∨
      (s.sets j).provider = none ∨ (s.region j index).allocation.token = 0 ∨
      s.Conflict (s.region j index).allocation ∧ (s.stage j index).listed = false ∧
        (s.Settled a → s.ClearOf (s.region j index).allocation) := by
  by_cases changed : s.SameAt t j index
  · obtain ⟨stage, region⟩ := changed
    unfold InUse
    rw [stage, region]
    exact .inl ⟨used, rfl⟩
  cases effect with
  | quiet i k frame stage region =>
    cases frame.here changed
    unfold InUse
    rw [stage, region.resolve_left used.1]
    exact .inl ⟨used, rfl⟩
  | refuse i k answer frame phase free | adopt i k answer row frame free =>
    cases frame.here changed
    exact absurd free used.1
  | enlist i k answer frame before after region =>
    cases frame.here changed
    exact .inl ⟨⟨by simp [after], by simp [after]⟩, region.2⟩
  | drop i k answer frame before after conflict =>
    cases frame.here changed
    refine .inr (.inr (.inr (.inr ⟨conflict, ?_, ?_⟩)))
    · rcases before with ⟨is, -⟩ | ⟨is, -⟩ <;> rw [is] <;> rfl
    · intro settled
      rcases before with ⟨-, status, phase⟩ | ⟨-, phase⟩
      · simpa only [Settled, phase, SettledIn] using settled
      · simpa only [Settled, phase, SettledIn] using settled
  | doom i k answer frame before phase after region =>
    cases frame.here changed
    exact .inl ⟨⟨by simp [after], by simp [after]⟩, by rw [region]⟩
  | call i k frame before after region registry calls =>
    cases frame.here changed
    rcases calls with ⟨-, none⟩ | ⟨-, zero⟩ | ⟨-, calls⟩
    · exact .inr (.inr (.inl none))
    · exact .inr (.inr (.inr (.inl zero)))
    · rw [calls, map_cons]
      exact .inr (.inl mem_cons_self)
  | leave i k frame before =>
    cases frame.here changed
    exact absurd before used.2

/-- What becomes of a new answer. -/
theorem Effect.new_cases (effect : Effect s t a) {given : ProviderAnswer ι}
    (new : t.answers[s.answers.length]? = some given) :
    (∃ index, t.InUse given.set index ∧ (t.region given.set index).answer = s.answers.length) ∨
      (s.sets given.set).provider = none ∨ given.allocation.token = 0 ∨
      ∃ answer index, a = .advance given.set answer ∧ given.allocation = answer.2 ∧
        (s.sets given.set).phase = .acquiring index ∧
        (s.sets given.set).duplicateLiveToken index answer.2.token := by
  have none : t.answers = s.answers → False := by
    intro same
    rw [same] at new
    exact absurd (List.getElem?_eq_some_iff.mp new).1 (lt_irrefl _)
  cases effect with
  | refuse i k answer frame phase before after cause registry calls answers =>
    rw [answers, List.getElem?_concat_length] at new
    cases new
    rcases cause with absent | zero | duplicate
    · exact .inr (.inl absent)
    · exact .inr (.inr (.inl zero))
    · exact .inr (.inr (.inr ⟨answer, k, rfl, rfl, phase, duplicate⟩))
  | adopt i k answer row frame free phase row_eq tokened taken region registry calls answers =>
    rw [answers, List.getElem?_concat_length] at new
    cases new
    refine .inl ⟨k, ?_, region.2⟩
    rcases taken with ⟨is, -⟩ | ⟨is, -⟩ | ⟨is, -⟩
    · exact ⟨by simp [is], by simp [is]⟩
    · exact ⟨by simp [is], by simp [is]⟩
    · exact ⟨by simp [is], by simp [is]⟩
  | _ => exact (none ‹t.answers = s.answers›).elim

theorem Custody.step (orderly : s.Orderly) (disciplined : s.Disciplined a) (settled : s.Settled a)
    (effect : Effect s t a) : t.Custody := by
  intro number given found token
  rcases effect.answer_cases found with before | ⟨rfl, -⟩
  · rcases orderly.custody number given before token with called | ⟨index, used, rfl⟩
    · left
      by_contra uncalled
      exact effect.calls_grow uncalled called
    · rcases effect.use_cases used with kept | called | absent | zero | ⟨conflict, unlisted, clear⟩
      · exact .inr ⟨index, kept⟩
      · exact .inl called
      · exact absurd absent (orderly.provided _)
      · exact absurd zero (orderly.tokened _ _ used.1)
      · exact absurd conflict (not_conflict orderly.ledger orderly.tokened orderly.apart used
          (unregistered_of_stage orderly.ledger.shaped rfl unlisted) (clear settled))
  · rcases effect.new_cases found with used | absent | zero | ⟨answer, k, rfl, same, at_, duplicate⟩
    · exact .inr used
    · exact absurd absent (orderly.provided _)
    · exact absurd zero token
    · rw [same] at token
      exact absurd duplicate (not_duplicate orderly.ledger orderly.tokened disciplined at_ token)

/-! ## Failures -/

theorem Peaceful.fail {u : RegionProcess ι} (peaceful : s.Peaceful) (same : u.failures = s.failures)
    {set : RegionSet} {diagnostic : AcquireDiagnostic} (harmless : diagnostic.conflict = false) :
    (u.fail i set diagnostic).Peaceful := by
  intro failure mem
  have mem : failure ∈ (i, diagnostic) :: u.failures := mem
  rcases mem_cons.mp mem with rfl | mem
  · exact harmless
  · rw [same] at mem
    exact peaceful failure mem

section

variable (orderly : s.Orderly)
include orderly

section Receive

variable {i : ι} {index : ℕ} {row : MemoryPolicyRow} {answer : AcquireAnswer}

theorem Peaceful.checkAnswer {u : RegionProcess ι}
    (disciplined : s.Disciplined (.advance i answer)) (same : u.failures = s.failures)
    (phase : (s.sets i).phase = .acquiring index) (region : Region) :
    (u.checkAnswer i index row ((s.sets i).putRegion index region) answer.2).Peaceful := by
  unfold RegionProcess.checkAnswer
  rw [RegionSet.otherAllocations_putRegion, RegionSet.putRegion_provider]
  cases verdict : answer.2.validate row (s.sets i).provider ((s.sets i).otherAllocations index) with
  | ok _ =>
    intro failure mem
    exact orderly.peaceful failure (same ▸ mem)
  | error diagnostic =>
    refine Peaceful.fail orderly.peaceful same ?_
    rw [← Bool.not_eq_true]
    intro conflict
    obtain ⟨token, bytes, clash⟩ := MemoryProviderAllocation.validate_conflict verdict conflict
    exact not_clashes orderly.ledger orderly.tokened disciplined phase token bytes clash

theorem Peaceful.receiveAnswer (disciplined : s.Disciplined (.advance i answer))
    (phase : (s.sets i).phase = .acquiring index) :
    (s.receiveAnswer i index row answer).Peaceful := by
  cases provider : (s.sets i).provider with
  | none => exact absurd provider (orderly.provided i)
  | some _ =>
    simp only [RegionProcess.receiveAnswer, provider]
    split_ifs with failed tokened null duplicate
    · intro failure mem
      exact orderly.peaceful failure mem
    · refine Peaceful.fail orderly.peaceful ?_ rfl
      rfl
    · refine Peaceful.checkAnswer orderly disciplined ?_ phase _
      rfl
    · exact absurd duplicate
        (not_duplicate orderly.ledger orderly.tokened disciplined phase null)
    · refine Peaceful.checkAnswer orderly disciplined ?_ phase _
      rfl

end Receive

theorem Peaceful.registerLive (settled : s.Settled (.advance i answer))
    (phase : (s.sets i).phase = .registering index) :
    (s.registerLive i index).Peaceful := by
  have calm := not_conflict_registering orderly settled phase
  have ranged := (orderly.ledger.shaped i).checked (by rw [phase]; rfl)
    ((orderly.ledger.shaped i).registering phase).1
  generalize outcome : registrationResult s.registry
    (((s.sets i).regions index).liveEntry (i, index)).token
    (((s.sets i).regions index).liveEntry (i, index)).overlaps = result
  simp only [RegionProcess.registerLive, outcome]
  cases result with
  | registered =>
    intro failure mem
    exact orderly.peaceful failure mem
  | duplicateToken | overlappingSpan =>
    exact absurd (registrationResult_conflict outcome (by simp) fun _ meets => ⟨ranged.1, meets⟩) calm

theorem Peaceful.advance (disciplined : s.Disciplined (.advance i answer))
    (settled : s.Settled (.advance i answer)) (step : s.advance i answer = some t) :
    t.Peaceful := by
  have same : t.failures = s.failures → t.Peaceful := by
    intro same failure mem
    rw [same] at mem
    exact orderly.peaceful failure mem
  simp only [RegionProcess.advance] at step
  generalize phase : (s.sets i).phase = current at step
  cases current with
  | idle => cases step
  | acquiring index =>
    simp only at step
    generalize (s.sets i).rows[index]? = found at step
    rcases found with _ | _ | row
    · cases step
      exact same rfl
    · cases step
      exact Peaceful.fail orderly.peaceful rfl rfl
    · simp only at step
      split_ifs at step
      · cases step
        exact same rfl
      · cases step
        exact Peaceful.receiveAnswer orderly disciplined phase
  | registering index =>
    cases step
    exact Peaceful.registerLive orderly settled phase
  | registeringProvisional index status =>
    cases step
    rw [registerProvisional]
    split
    · refine Peaceful.fail orderly.peaceful ?_ rfl
      rfl
    · exact Peaceful.fail orderly.peaceful rfl rfl
  | releasing left =>
    cases left with
    | zero =>
      cases step
      exact same rfl
    | succ index =>
      cases step
      refine same ?_
      rw [releaseRegion]
      dsimp only
      split_ifs <;> rfl
  | unregistering index =>
    cases step
    exact same rfl

theorem Orderly.step (disciplined : s.Disciplined a) (settled : s.Settled a)
    (step : s.act a = some t) : t.Orderly := by
  have moves := act_moves orderly.ledger.shaped step
  refine ⟨orderly.ledger.step moves, orderly.provided.step moves.effect,
    orderly.tokened.step orderly.provided moves.effect, orderly.apart.step disciplined moves.effect,
    Custody.step orderly disciplined settled moves.effect, ?_⟩
  cases a with
  | advance i answer => exact Peaceful.advance orderly disciplined settled step
  | beginAcquire i | beginRelease i =>
    simp only [act] at step
    split_ifs at step
    cases step
    exact orderly.peaceful

end

/-! ## Released exactly once -/

/-- A release that has begun goes on with each piece of its set until it is done. -/
theorem release_continues (s : RegionProcess ι) (i : ι) (answer : AcquireAnswer)
    (releasing : (s.sets i).phase.remaining ≠ 0) :
    ∃ t, s.act (.advance i answer) = some t ∧
      (t.sets i).phase.remaining < (s.sets i).phase.remaining ∧
      ((t.sets i).phase = .idle ∨ (t.sets i).phase.remaining ≠ 0) := by
  have put : ∀ (u : RegionProcess ι) (set : RegionSet), (u.putSet i set).sets i = set :=
    fun u set => Function.update_self ..
  cases phase : (s.sets i).phase with
  | idle | acquiring _ | registering _ | registeringProvisional _ _ =>
    exact absurd (by rw [phase]; rfl) releasing
  | releasing left =>
    cases left with
    | zero =>
      refine ⟨s.putSet i { s.sets i with phase := .idle }, by simp only [act, advance, phase], ?_⟩
      rw [put]
      exact ⟨by simp [SetPhase.remaining], .inl rfl⟩
    | succ index =>
      refine ⟨s.releaseRegion i index, by simp only [act, advance, phase], ?_⟩
      unfold releaseRegion
      dsimp only
      split_ifs <;> rw [put]
      · simp [SetPhase.remaining]
      all_goals
        exact ⟨by simp only [SetPhase.remaining]; omega, .inr (by simp [SetPhase.remaining])⟩
  | unregistering index =>
    refine ⟨s.unregisterRegion i index, by simp only [act, advance, phase], ?_⟩
    rw [unregisterRegion, put]
    simp [SetPhase.remaining]

/-- With a provider that hands nothing out before it was asked to release it, and while each
registration comes after the former owner has left the registry, no acquire fails because its region
is in use.  Each token that was handed out is with its set and was not given back, or was given back
exactly once.  A set that has walked through its release has given everything back, and a release
that has begun gets there. -/
theorem regions_released_once {start : RegionProcess ι} (initial : start.Initial)
    (provided : start.Provided) {actions : List (RegionAction ι)}
    (disciplined : RunMeets act Disciplined start actions)
    (settled : RunMeets act Settled start actions)
    (ran : runActions act start actions = some s) :
    s.Peaceful ∧
    (∀ number given, s.answers[number]? = some given → given.allocation.token ≠ 0 →
      (s.calls.map (·.answer)).count number = 1 ∨
        (s.calls.map (·.answer)).count number = 0 ∧
          ∃ index, s.InUse given.set index ∧ (s.region given.set index).answer = number) ∧
    (∀ call ∈ s.calls, s.Answered call.answer call.set call.token) ∧
    (∀ i, (s.sets i).phase = .releasing 0 → ∀ number given, s.answers[number]? = some given →
      given.set = i → given.allocation.token ≠ 0 → (s.calls.map (·.answer)).count number = 1) ∧
    ∀ i answer, (s.sets i).phase.remaining ≠ 0 → ∃ t, s.act (.advance i answer) = some t ∧
      (t.sets i).phase.remaining < (s.sets i).phase.remaining ∧
      ((t.sets i).phase = .idle ∨ (t.sets i).phase.remaining ≠ 0) := by
  have orderly : s.Orderly :=
    RunMeets.invariant (fun _ _ _ orderly met step => orderly.step met.1 met.2 step)
      (initial.orderly provided) (disciplined.both settled) ran
  refine ⟨orderly.peaceful, ?_, fun call => orderly.ledger.accounts.called, ?_,
    fun i answer => release_continues s i answer⟩
  · intro number given found token
    by_cases called : number ∈ s.calls.map (·.answer)
    · exact .inl (count_eq_one_of_mem orderly.ledger.accounts.once called)
    · exact .inr ⟨count_eq_zero_of_not_mem called,
        (orderly.custody number given found token).resolve_left called⟩
  · rintro i phase number given found rfl token
    refine orderly.count_of_free found token fun index used => used.1 ?_
    have free := (orderly.ledger.shaped given.set).releasing phase index (Nat.zero_le _)
    simp [stage, RegionSet.stage, phase, free]

end Steps

/-! ## The window -/

/-- One set acquires its region and asks the provider to release it; the provider hands the same
allocation to the other set. -/
def reuse : List (RegionAction (Fin 2)) :=
  [.beginAcquire 1, .advance 1 (.ok, smallAllocation 5 64), .advance 1 (.ok, {}),
    .advance 1 (.ok, {}), .beginRelease 1, .advance 1 (.ok, {}),
    .beginAcquire 0, .advance 0 (.ok, smallAllocation 5 64)]

theorem regions_released_once_reuse :
    ∃ s, runActions act twoSets (reuse ++ [.advance 1 (.ok, {}), .advance 0 (.ok, {})]) = some s ∧
      s.Peaceful ∧
      (∀ number given, s.answers[number]? = some given → given.allocation.token ≠ 0 →
        (s.calls.map (·.answer)).count number = 1 ∨
          (s.calls.map (·.answer)).count number = 0 ∧
            ∃ index, s.InUse given.set index ∧ (s.region given.set index).answer = number) ∧
      (∀ call ∈ s.calls, s.Answered call.answer call.set call.token) ∧
      (∀ i, (s.sets i).phase = .releasing 0 → ∀ number given, s.answers[number]? = some given →
        given.set = i → given.allocation.token ≠ 0 →
          (s.calls.map (·.answer)).count number = 1) ∧
      ∀ i answer, (s.sets i).phase.remaining ≠ 0 → ∃ t, s.act (.advance i answer) = some t ∧
        (t.sets i).phase.remaining < (s.sets i).phase.remaining ∧
        ((t.sets i).phase = .idle ∨ (t.sets i).phase.remaining ≠ 0) := by
  have disciplined : RunMeets act Disciplined twoSets
      (reuse ++ [.advance 1 (.ok, {}), .advance 0 (.ok, {})]) := by decide +kernel
  have settled : RunMeets act Settled twoSets
      (reuse ++ [.advance 1 (.ok, {}), .advance 0 (.ok, {})]) := by decide +kernel
  obtain ⟨s, ran⟩ : ∃ s, runActions act twoSets
      (reuse ++ [.advance 1 (.ok, {}), .advance 0 (.ok, {})]) = some s :=
    Option.isSome_iff_exists.mp (by decide +kernel)
  exact ⟨s, ran, regions_released_once twoSets_initial (fun _ => Option.some_ne_none _) disciplined
    settled ran⟩

/-- The other set registers while the entry of the former owner is still there: its acquire fails,
and when it rests again, what it was handed has not been given back. -/
theorem reuse_in_window_fails :
    RunMeets act Disciplined twoSets (reuse ++ List.replicate 3 (.advance 0 (.ok, {}))) ∧
      ∃ s, runActions act twoSets (reuse ++ List.replicate 3 (.advance 0 (.ok, {}))) = some s ∧
        s.failures = [(0, .tokenOwnedByAnotherRuntime)] ∧ (s.sets 0).phase = .idle ∧
        s.answers[1]? = some ⟨0, 0, .ok, smallAllocation 5 64⟩ ∧ s.stage 0 0 = .free ∧
        (s.calls.map (·.answer)).count 1 = 0 := by
  refine ⟨by decide +kernel, ?_⟩
  have holds : (runActions act twoSets (reuse ++ replicate 3 (.advance 0 (.ok, {})))).any
      fun s => decide (s.failures = [(0, .tokenOwnedByAnotherRuntime)] ∧
        (s.sets 0).phase = .idle ∧ s.answers[1]? = some ⟨0, 0, .ok, smallAllocation 5 64⟩ ∧
        s.stage 0 0 = .free ∧ (s.calls.map (·.answer)).count 1 = 0) := by
    decide +kernel
  obtain ⟨s, ran, facts⟩ := (Option.any_eq_true _ _).mp holds
  exact ⟨s, ran, of_decide_eq_true facts⟩

end RegionProcess

end RtRuntime
