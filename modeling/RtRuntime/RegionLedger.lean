import RtRuntime.RegionOwnership

/-!
# Who may release a region

The registry of the process and the histories of answers and release calls agree with the regions of
all sets, whatever the provider answers.  A region is released at most once for the answer it came
with.  That its token belongs to nobody else is true of registered regions; a region that fails a
check before its registration is released as well, and its token may be registered for another set.
-/

namespace RtRuntime

open List

/-- Only these regions can be in the registry. -/
def Stage.listed : Stage → Bool
  | .owned | .leaving => true
  | _ => false

namespace RegionProcess

variable {ι : Type} {s t : RegionProcess ι} {a : RegionAction ι}

/-! ## Stages and flags -/

variable {index : ℕ} {i : ι}

theorem registered_of_owned (owned : s.stage i index = .owned) :
    (s.region i index).registered := by
  unfold stage RegionSet.stage Region.stageIn at owned
  split_ifs at owned with _ _ _ registered
  exact registered

theorem stage_of_registered (shaped : ∀ i, (s.sets i).Shaped)
    (registered : (s.region i index).registered) :
    s.stage i index = .owned ∨ s.stage i index = .leaving := by
  have acquired : ((s.sets i).regions index).acquired := (shaped i).registered registered
  have flagged : ((s.sets i).regions index).registered := registered
  unfold stage RegionSet.stage Region.stageIn
  split_ifs with leaving provisional free
  · exact .inr rfl
  · -- a region that waits for its provisional registration is not acquired
    obtain ⟨status, phase⟩ : ∃ status, (s.sets i).phase = .registeringProvisional index status := by
      unfold SetPhase.provisionalAt at provisional
      split at provisional
      · rename_i at_ status phase
        exact ⟨status, by rw [phase, of_decide_eq_true provisional]⟩
      · cases provisional
    have unowned := ((shaped i).provisional phase).2 index le_rfl
    rw [acquired] at unowned
    cases unowned
  · rw [acquired] at free
    cases free
  · exact .inl rfl

/-! ## The moves, as the histories see them -/

section Histories

variable [DecidableEq ι]

/-- A region in use came with the answer just given, or was in use before. -/
theorem Effect.origin (effect : Effect s t a) {j : ι} (used : t.stage j index ≠ .free) :
    (s.stage j index ≠ .free ∧ (s.stage j index = .leaving → t.stage j index = .leaving) ∧
      (t.region j index).allocation = (s.region j index).allocation ∧
      (t.region j index).answer = (s.region j index).answer) ∨
    ∃ status, t.answers = s.answers ++ [⟨j, index, status, (t.region j index).allocation⟩] ∧
      (t.region j index).answer = s.answers.length ∧ t.calls = s.calls ∧
      ((s.sets j).provider = none ∨ (t.region j index).allocation.token ≠ 0) := by
  by_cases changed : s.SameAt t j index
  · obtain ⟨stage, region⟩ := changed
    rw [stage] at used ⊢
    rw [region]
    exact .inl ⟨used, id, rfl, rfl⟩
  cases effect with
  | quiet i k frame stage region =>
    cases frame.here changed
    rw [stage] at used ⊢
    rw [region.resolve_left used]
    exact .inl ⟨used, id, rfl, rfl⟩
  | refuse i k answer frame phase before after | drop i k answer frame before after
  | leave i k frame before after =>
    cases frame.here changed
    exact absurd after used
  | adopt i k answer row frame free phase row_eq tokened taken region registry calls answers =>
    cases frame.here changed
    rw [region.1]
    exact .inr ⟨answer.1, answers, region.2, calls, tokened⟩
  | enlist i k answer frame before after region =>
    cases frame.here changed
    refine .inl ⟨?_, ?_, region⟩
    · rcases before with ⟨before, -⟩ | ⟨before, -⟩ <;> simp [before]
    · rcases before with ⟨before, -⟩ | ⟨before, -⟩ <;> simp [before]
  | doom i k answer frame before phase after region =>
    cases frame.here changed
    rw [region]
    exact .inl ⟨by simp [before], by simp [before], rfl, rfl⟩
  | call i k frame before after region =>
    cases frame.here changed
    rw [region]
    refine .inl ⟨?_, fun _ => after, rfl, rfl⟩
    rcases before with before | before <;> simp [before]

/-- An answer is added in the piece that receives it. -/
theorem Effect.answers_cases (effect : Effect s t a) :
    t.answers = s.answers ∨ ∃ i answer index, a = .advance i answer ∧
      (s.sets i).phase = .acquiring index ∧
      t.answers = s.answers ++ [⟨i, index, answer.1, answer.2⟩] := by
  cases effect with
  | refuse i k answer frame phase before after cause registry calls answers
  | adopt i k answer row frame free phase row_eq tokened taken region registry calls answers =>
    exact .inr ⟨i, answer, k, rfl, phase, answers⟩
  | _ => exact .inl ‹t.answers = s.answers›

/-- A release call is made for a region that is acquired, with its token. -/
theorem Effect.calls_cases (effect : Effect s t a) :
    t.calls = s.calls ∨ ∃ i index, (s.stage i index = .owned ∨ s.stage i index = .doomed) ∧
      t.stage i index = .leaving ∧ (s.region i index).allocation.token ≠ 0 ∧
      t.calls = ⟨i, (s.region i index).allocation.token, (s.region i index).answer⟩ :: s.calls := by
  cases effect with
  | call i k frame before after region registry calls answers =>
    rcases calls with ⟨calls, -⟩ | ⟨calls, -⟩ | ⟨token, calls⟩
    · exact .inl calls
    · exact .inl calls
    · exact .inr ⟨i, k, before, after, token, calls⟩
  | _ => exact .inl ‹t.calls = s.calls›

end Histories

/-! ## Answers and calls -/

/-- The history has an answer under this number to this set, with this token. -/
def Answered (s : RegionProcess ι) (number : ℕ) (i : ι) (token : ℕ) : Prop :=
  ∃ region status allocation, s.answers[number]? = some ⟨i, region, status, allocation⟩ ∧
    allocation.token = token

/-- The histories agree with the regions. -/
structure Accounts (s : RegionProcess ι) : Prop where
  answered {i : ι} {index : ℕ} : s.stage i index ≠ .free →
    ∃ status, s.answers[(s.region i index).answer]? =
      some ⟨i, index, status, (s.region i index).allocation⟩
  called {call : ReleaseCall ι} : call ∈ s.calls → s.Answered call.answer call.set call.token
  uncalled {i : ι} {index : ℕ} : s.stage i index ≠ .free → s.stage i index ≠ .leaving →
    (s.region i index).answer ∉ s.calls.map (·.answer)
  once : (s.calls.map (·.answer)).Nodup

namespace Accounts

theorem answer_kept [DecidableEq ι] (effect : Effect s t a) {number : ℕ} {answer : ProviderAnswer ι}
    (given : s.answers[number]? = some answer) : t.answers[number]? = some answer := by
  rcases effect.answers_cases with same | ⟨i, _, index, -, -, grown⟩
  · rwa [same]
  · exact grown ▸ getElem?_concat_eq_some.mpr (.inl given)

theorem number_lt (accounts : s.Accounts) {number : ℕ}
    (mem : number ∈ s.calls.map (·.answer)) : number < s.answers.length := by
  obtain ⟨call, made, rfl⟩ := mem_map.mp mem
  obtain ⟨region, status, allocation, given, -⟩ := accounts.called made
  exact (List.getElem?_eq_some_iff.mp given).1

/-- Two regions in use came with different answers. -/
theorem region_of_answer (accounts : s.Accounts) {j : ι} {other : ℕ}
    (used : s.stage i index ≠ .free) (used' : s.stage j other ≠ .free)
    (same : (s.region i index).answer = (s.region j other).answer) : (i, index) = (j, other) := by
  obtain ⟨_, given⟩ := accounts.answered used
  obtain ⟨_, given'⟩ := accounts.answered used'
  rw [same, given'] at given
  cases given
  rfl

theorem step [DecidableEq ι] (accounts : s.Accounts) (effect : Effect s t a) : t.Accounts := by
  constructor
  case answered =>
    intro j index used
    rcases effect.origin used with ⟨before, -, allocation, number⟩ | ⟨status, answers, number, -⟩
    · obtain ⟨status, given⟩ := accounts.answered before
      refine ⟨status, ?_⟩
      rw [allocation, number]
      exact answer_kept effect given
    · refine ⟨status, ?_⟩
      rw [number, answers]
      exact List.getElem?_concat_length
  case called =>
    have kept : ∀ call ∈ s.calls, t.Answered call.answer call.set call.token := by
      intro call mem
      obtain ⟨region, status, allocation, given, token⟩ := accounts.called mem
      exact ⟨region, status, allocation, answer_kept effect given, token⟩
    intro call mem
    rcases effect.calls_cases with calls | ⟨i, index, before, -, -, calls⟩
    · rw [calls] at mem
      exact kept call mem
    · rw [calls] at mem
      rcases mem_cons.mp mem with rfl | mem
      · have used : s.stage i index ≠ .free := by rcases before with before | before <;> simp [before]
        obtain ⟨status, given⟩ := accounts.answered used
        exact ⟨index, status, _, answer_kept effect given, rfl⟩
      · exact kept call mem
  case uncalled =>
    intro j index used staying
    rcases effect.origin used with ⟨before, leaves, -, number⟩ | ⟨status, answers, number, calls, -⟩
    · have old := accounts.uncalled before fun is => staying (leaves is)
      rw [number]
      rcases effect.calls_cases with calls | ⟨i, k, origin, after, -, calls⟩
      · rwa [calls]
      · rw [calls, map_cons, mem_cons, not_or]
        refine ⟨fun same => ?_, old⟩
        have used' : s.stage i k ≠ .free := by rcases origin with origin | origin <;> simp [origin]
        cases accounts.region_of_answer before used' same
        exact staying after
    · rw [number, calls]
      exact fun mem => (accounts.number_lt mem).false
  case once =>
    rcases effect.calls_cases with calls | ⟨i, index, before, -, -, calls⟩
    · rw [calls]
      exact accounts.once
    · rw [calls, map_cons, nodup_cons]
      refine ⟨accounts.uncalled ?_ ?_, accounts.once⟩
      · rcases before with before | before <;> simp [before]
      · rcases before with before | before <;> simp [before]

end Accounts

/-! ## The registry -/

/-- The registry agrees with the regions. -/
structure Books (s : RegionProcess ι) : Prop where
  entry {entry : LiveAllocation ι} : entry ∈ s.registry →
    (s.region entry.owner.1 entry.owner.2).registered ∧
      (s.region entry.owner.1 entry.owner.2).allocation.token = entry.token ∧
      entry.Covers (s.region entry.owner.1 entry.owner.2).allocation
  listed {i : ι} {index : ℕ} : (s.region i index).registered →
    ∃ entry ∈ s.registry, entry.owner = (i, index)
  distinct : (s.registry.map (·.token)).Nodup

namespace Books

/-- Two registered regions have different tokens. -/
theorem region_of_token (books : s.Books) {j : ι} {other : ℕ}
    (registered : (s.region i index).registered) (registered' : (s.region j other).registered)
    (same : (s.region i index).allocation.token = (s.region j other).allocation.token) :
    (i, index) = (j, other) := by
  obtain ⟨entry, mem, owner⟩ := books.listed registered
  obtain ⟨entry', mem', owner'⟩ := books.listed registered'
  have token := (books.entry mem).2.1
  have token' := (books.entry mem').2.1
  rw [owner] at token
  rw [owner'] at token'
  have eq := inj_on_of_nodup_map books.distinct mem mem' (by rw [← token, ← token', same])
  rw [← owner, ← owner', eq]

end Books

/-- What the registry sees of the regions has not changed. -/
def SameFlags (s t : RegionProcess ι) : Prop :=
  ∀ j index, (t.region j index).registered = (s.region j index).registered ∧
    ((s.region j index).registered →
      (t.region j index).allocation = (s.region j index).allocation)

theorem unregistered_of_stage (shaped : ∀ i, (s.sets i).Shaped) {stage : Stage}
    (is : s.stage i index = stage) (unlisted : stage.listed = false) :
    (s.region i index).registered = false := by
  subst is
  rw [← Bool.not_eq_true]
  intro registered
  rcases stage_of_registered shaped registered with is | is
  · rw [is] at unlisted
    cases unlisted
  · rw [is] at unlisted
    cases unlisted

theorem Books.same (books : s.Books) (flags : SameFlags s t) (registry : t.registry = s.registry) :
    t.Books := by
  constructor
  case entry =>
    intro entry mem
    rw [registry] at mem
    obtain ⟨registered, agrees⟩ := books.entry mem
    obtain ⟨flag, kept⟩ := flags entry.owner.1 entry.owner.2
    rw [flag, kept registered]
    exact ⟨registered, agrees⟩
  case listed =>
    intro i index registered
    rw [(flags i index).1] at registered
    rw [registry]
    exact books.listed registered
  case distinct =>
    rw [registry]
    exact books.distinct

section Registry

variable [DecidableEq ι]

section

variable (frame : Frame s t i index)
include frame

theorem Frame.sameFlags (own : (t.region i index).registered = (s.region i index).registered ∧
      ((s.region i index).registered →
        (t.region i index).allocation = (s.region i index).allocation)) :
    SameFlags s t := by
  intro j other
  by_cases same : (j, other) = (i, index)
  · cases same
    exact own
  · rw [frame.region same]
    exact ⟨rfl, fun _ => rfl⟩

/-- A region is unregistered before the move and after it. -/
theorem Frame.sameFlags_of_unregistered
    (before : (s.region i index).registered = false)
    (after : (t.region i index).registered = false) :
    SameFlags s t :=
  frame.sameFlags ⟨by rw [before, after], fun registered => by
    rw [before] at registered; cases registered⟩

theorem Books.enlist (books : s.Books)
    (before : (s.region i index).registered = false) (after : (t.region i index).registered)
    (allocation : (t.region i index).allocation = (s.region i index).allocation)
    {entry : LiveAllocation ι} (owner : entry.owner = (i, index))
    (token : entry.token = (s.region i index).allocation.token)
    (range : entry.Covers (s.region i index).allocation)
    (unused : ∀ other ∈ s.registry, other.token ≠ entry.token)
    (registry : t.registry = entry :: s.registry) : t.Books := by
  constructor
  case entry =>
    intro other mem
    rw [registry] at mem
    rcases mem_cons.mp mem with rfl | mem
    · rw [owner]
      exact ⟨after, by rw [allocation, token], by rwa [allocation]⟩
    · obtain ⟨registered, kept⟩ := books.entry mem
      have apart : (other.owner.1, other.owner.2) ≠ (i, index) := by
        intro same
        cases same
        rw [before] at registered
        cases registered
      rw [frame.region apart]
      exact ⟨registered, kept⟩
  case listed =>
    intro j other registered
    rw [registry]
    by_cases same : (j, other) = (i, index)
    · exact ⟨entry, mem_cons_self, by rw [owner, same]⟩
    · rw [frame.region same] at registered
      obtain ⟨found, mem, owned⟩ := books.listed registered
      exact ⟨found, mem_cons_of_mem _ mem, owned⟩
  case distinct =>
    rw [registry, map_cons, nodup_cons]
    refine ⟨fun mem => ?_, books.distinct⟩
    obtain ⟨other, mem, same⟩ := mem_map.mp mem
    exact unused other mem same

theorem Books.leave (books : s.Books) (after : (t.region i index).registered = false)
    (registry : t.registry = s.registry.filter (·.owner ≠ (i, index))) : t.Books := by
  constructor
  case entry =>
    intro entry mem
    rw [registry, mem_filter, decide_eq_true_eq] at mem
    rw [frame.region mem.2]
    exact books.entry mem.1
  case listed =>
    intro j other registered
    by_cases same : (j, other) = (i, index)
    · cases same
      rw [after] at registered
      cases registered
    · rw [frame.region same] at registered
      obtain ⟨found, mem, owned⟩ := books.listed registered
      refine ⟨found, ?_, owned⟩
      rw [registry, mem_filter, decide_eq_true_eq, owned]
      exact ⟨mem, same⟩
  case distinct =>
    rw [registry]
    exact books.distinct.sublist (filter_sublist.map _)

end

theorem Books.step (books : s.Books) (shaped : ∀ i, (s.sets i).Shaped)
    (shaped' : ∀ i, (t.sets i).Shaped) (effect : Effect s t a) : t.Books := by
  cases effect with
  | quiet i k frame stage region registry =>
    rcases region with free | region
    · have before := unregistered_of_stage shaped free rfl
      have after := unregistered_of_stage shaped' (stage.trans free) rfl
      exact books.same (frame.sameFlags_of_unregistered before after) registry
    · exact books.same (frame.sameFlags ⟨by rw [region], fun _ => by rw [region]⟩) registry
  | refuse i k answer frame phase free after cause registry =>
    have before := unregistered_of_stage shaped free rfl
    have after := unregistered_of_stage shaped' after rfl
    exact books.same (frame.sameFlags_of_unregistered before after) registry
  | adopt i k answer row frame free phase row_eq tokened taken region registry =>
    have before := unregistered_of_stage shaped free rfl
    have after : (t.region i k).registered = false := by
      rcases taken with ⟨is, -⟩ | ⟨is, -⟩ | ⟨is, -⟩ <;> exact unregistered_of_stage shaped' is rfl
    exact books.same (frame.sameFlags_of_unregistered before after) registry
  | enlist i k answer frame before after region entry owner token range unused registry =>
    have before : (s.region i k).registered = false := by
      rcases before with ⟨is, -⟩ | ⟨is, -⟩ <;> exact unregistered_of_stage shaped is rfl
    exact books.enlist frame before (registered_of_owned after) region.1 owner token range unused
      registry
  | drop i k answer frame before after conflict registry =>
    have before : (s.region i k).registered = false := by
      rcases before with ⟨is, -⟩ | ⟨is, -⟩ <;> exact unregistered_of_stage shaped is rfl
    have free := unregistered_of_stage shaped' after rfl
    exact books.same (frame.sameFlags_of_unregistered before free) registry
  | doom i k answer frame before phase after region conflict overlapping registry
  | call i k frame before after region registry =>
    exact books.same (frame.sameFlags ⟨by rw [region], fun _ => by rw [region]⟩) registry
  | leave i k frame before after registry =>
    have free := unregistered_of_stage shaped' after rfl
    split_ifs at registry with registered
    · exact books.leave frame free registry
    · exact books.same (frame.sameFlags_of_unregistered (by simpa using registered) free) registry

end Registry

/-! ## Regions that are released unregistered -/

/-- No other set has the token of a region that is released without a registration. -/
def Unshared (s : RegionProcess ι) : Prop :=
  ∀ i index, s.stage i index = .doomed → (s.region i index).allocation.token ≠ 0 →
    ∀ j ≠ i, ∀ other, ¬ s.Holds j other (s.region i index).allocation.token

instance (i : ι) (index token : ℕ) : Decidable (s.Holds i index token) :=
  inferInstanceAs (Decidable (_ ∧ _))

/-- The answer passes the checks of `acquire_one` for this region. -/
def Passes (s : RegionProcess ι) (i : ι) (index : ℕ) (allocation : MemoryProviderAllocation) :
    Prop :=
  match (s.sets i).rows[index]? with
  | some (some row) =>
    allocation.validate row (s.sets i).provider ((s.sets i).otherAllocations index) = .ok ()
  | _ => True

/-- What is asked of the next piece of an operation in this phase.  A token that another set still
has is answered only with an allocation that passes the checks and meets no other live allocation,
and never while the other set is giving it back unregistered. -/
def CautiousIn (s : RegionProcess ι) (i : ι) (answer : AcquireAnswer) : SetPhase → Prop
  | .acquiring index => answer.1 = .ok → answer.2.token ≠ 0 →
    ∀ j ≠ i, ∀ other < (s.sets j).rows.length, s.Holds j other answer.2.token →
      s.stage j other ≠ .doomed ∧ s.Passes i index answer.2
  | .registering index =>
    ∀ j ≠ i, ∀ other < (s.sets j).rows.length,
      s.Holds j other (s.region i index).allocation.token →
        ∀ live ∈ s.registry, live.token ≠ (s.region i index).allocation.token →
          ¬ ((s.region i index).liveEntry (i, index)).overlaps live
  | .registeringProvisional index _ =>
    ∀ j ≠ i, ∀ other < (s.sets j).rows.length,
      s.Holds j other (s.region i index).allocation.token → s.stage j other ≠ .doomed
  | _ => True

def Cautious (s : RegionProcess ι) : RegionAction ι → Prop
  | .advance i answer => s.CautiousIn i answer (s.sets i).phase
  | _ => True

section Decidable

variable [Fintype ι] [DecidableEq ι]

instance (i : ι) (index : ℕ) (allocation : MemoryProviderAllocation) :
    Decidable (s.Passes i index allocation) :=
  match row_eq : (s.sets i).rows[index]? with
  | some (some row) =>
    decidable_of_iff (allocation.validate row (s.sets i).provider
      ((s.sets i).otherAllocations index) = .ok ()) (by simp only [Passes, row_eq])
  | some none | none => isTrue (by simp only [Passes, row_eq])

instance (i : ι) (answer : AcquireAnswer) : (phase : SetPhase) →
    Decidable (s.CautiousIn i answer phase)
  | .acquiring _ => inferInstanceAs (Decidable (_ → _))
  | .registering _ | .registeringProvisional _ _ => inferInstanceAs (Decidable (∀ _, _))
  | .idle | .releasing _ | .unregistering _ => isTrue trivial

instance : (a : RegionAction ι) → Decidable (s.Cautious a)
  | .advance i answer => inferInstanceAs (Decidable (s.CautiousIn i answer _))
  | .beginAcquire _ | .beginRelease _ => isTrue trivial

end Decidable

theorem inside_of_holds (shaped : ∀ i, (s.sets i).Shaped) {token : ℕ}
    (holds : s.Holds i index token) : index < (s.sets i).rows.length := by
  apply (shaped i).inside
  obtain ⟨stage, -⟩ := holds
  unfold RegionProcess.stage RegionSet.stage Region.stageIn at stage
  split_ifs at stage with leaving provisional free
  · simp at stage
  · simp at stage
  · simp at stage
  all_goals simpa using free

theorem not_passes {row : MemoryPolicyRow} {allocation : MemoryProviderAllocation}
    {diagnostic : AcquireDiagnostic} (row_eq : (s.sets i).rows[index]? = some (some row))
    (failed : allocation.validate row (s.sets i).provider ((s.sets i).otherAllocations index) =
      .error diagnostic) : ¬ s.Passes i index allocation := by
  intro passes
  simp only [Passes, row_eq, failed] at passes
  cases passes

/-- The ledgers of a run. -/
structure Ledger (s : RegionProcess ι) : Prop where
  shaped : ∀ i, (s.sets i).Shaped
  books : s.Books
  accounts : s.Accounts

theorem Initial.ledger (initial : s.Initial) : s.Ledger := by
  have unregistered : ∀ i index, (s.region i index).registered = false := by
    intro i index
    rw [region, initial.regions]
  have free : ∀ i index, s.stage i index = .free := by
    intro i index
    simp [stage, RegionSet.stage, initial.regions, initial.idle]
  constructor
  case shaped =>
    intro i
    constructor <;> simp [initial.regions, initial.idle]
  case books =>
    constructor <;> simp [initial.registry, unregistered]
  case accounts =>
    constructor <;> simp [initial.calls, free]

theorem Initial.unshared (initial : s.Initial) : s.Unshared := by
  intro i index doomed
  simp [stage, RegionSet.stage, initial.regions, initial.idle] at doomed

section Cautious

variable [DecidableEq ι]

/-- How a set comes to hold a token. -/
theorem Effect.holds_cases (effect : Effect s t a) {j : ι} {token : ℕ}
    (holds : t.Holds j index token) :
    s.Holds j index token ∨
      (∃ answer, a = .advance j answer ∧ (s.sets j).phase = .acquiring index ∧ answer.1 = .ok ∧
        answer.2.token = token) ∨
      ∃ answer status, a = .advance j answer ∧
        (s.sets j).phase = .registeringProvisional index status ∧
        (s.region j index).allocation.token = token := by
  obtain ⟨stage, token_eq⟩ := holds
  by_cases changed : s.SameAt t j index
  · obtain ⟨same, region⟩ := changed
    rw [same] at stage
    rw [region] at token_eq
    exact .inl ⟨stage, token_eq⟩
  cases effect with
  | quiet i k frame kept region =>
    cases frame.here changed
    rw [kept] at stage
    rw [region.resolve_left (by rintro is; simp [is] at stage)] at token_eq
    exact .inl ⟨stage, token_eq⟩
  | refuse i k answer frame phase before after | drop i k answer frame before after
  | call i k frame before after | leave i k frame before after =>
    cases frame.here changed
    simp [after] at stage
  | adopt i k answer row frame free phase row_eq tokened taken region =>
    cases frame.here changed
    rw [region.1] at token_eq
    rcases taken with ⟨is, -⟩ | ⟨-, ok⟩ | ⟨-, ok, -⟩
    · simp [is] at stage
    · exact .inr (.inl ⟨answer, rfl, phase, ok, token_eq⟩)
    · exact .inr (.inl ⟨answer, rfl, phase, ok, token_eq⟩)
  | enlist i k answer frame before after region =>
    cases frame.here changed
    rw [region.1] at token_eq
    rcases before with ⟨-, status, phase⟩ | ⟨is, -⟩
    · exact .inr (.inr ⟨answer, status, rfl, phase, token_eq⟩)
    · exact .inl ⟨.inl is, token_eq⟩
  | doom i k answer frame before phase after region =>
    cases frame.here changed
    rw [region] at token_eq
    exact .inl ⟨.inl before, token_eq⟩

/-- How a region comes to be released without a registration. -/
theorem Effect.doomed_cases (effect : Effect s t a) {j : ι} (doomed : t.stage j index = .doomed) :
    (s.stage j index = .doomed ∧ t.region j index = s.region j index) ∨
      (∃ answer, a = .advance j answer ∧ (s.sets j).phase = .acquiring index ∧ answer.1 = .ok ∧
        (t.region j index).allocation = answer.2 ∧ ¬ s.Passes j index answer.2) ∨
      ∃ answer, a = .advance j answer ∧ (s.sets j).phase = .registering index ∧
        t.region j index = s.region j index ∧
        ∃ live ∈ s.registry, live.token ≠ (s.region j index).allocation.token ∧
          ((s.region j index).liveEntry (j, index)).overlaps live := by
  by_cases changed : s.SameAt t j index
  · obtain ⟨stage, region⟩ := changed
    rw [stage] at doomed
    exact .inl ⟨doomed, region⟩
  cases effect with
  | quiet i k frame kept region =>
    cases frame.here changed
    rw [kept] at doomed
    exact .inl ⟨doomed, region.resolve_left (by simp [doomed])⟩
  | refuse i k answer frame phase before after | enlist i k answer frame before after
  | drop i k answer frame before after | call i k frame before after
  | leave i k frame before after =>
    cases frame.here changed
    simp [after] at doomed
  | adopt i k answer row frame free phase row_eq tokened taken region =>
    cases frame.here changed
    rcases taken with ⟨is, -⟩ | ⟨is, -⟩ | ⟨-, ok, diagnostic, failed⟩
    · simp [is] at doomed
    · simp [is] at doomed
    · exact .inr (.inl ⟨answer, rfl, phase, ok, region.1, not_passes row_eq failed⟩)
  | doom i k answer frame before phase after region conflict overlapping =>
    cases frame.here changed
    exact .inr (.inr ⟨answer, rfl, phase, region, registrationResult_overlapping overlapping⟩)

theorem Unshared.step (unshared : s.Unshared) (shaped : ∀ i, (s.sets i).Shaped)
    (cautious : s.Cautious a) (effect : Effect s t a) : t.Unshared := by
  intro i index doomed token j ne other holds
  rcases effect.doomed_cases doomed with
    ⟨before, region⟩ | ⟨answer, rfl, phase, ok, region, fails⟩ |
      ⟨answer, rfl, phase, region, live, mem, differs, meets⟩
  · -- the region was already to be released: nobody may take up its token
    rw [region] at token holds
    have held : s.Holds i index (s.region i index).allocation.token := ⟨.inr (.inr before), rfl⟩
    have inside := inside_of_holds shaped held
    rcases effect.holds_cases holds with
      old | ⟨answer, rfl, phase, ok, same⟩ | ⟨answer, status, rfl, phase, same⟩
    · exact unshared i index before token j ne other old
    · simp only [Cautious, phase, CautiousIn] at cautious
      rw [same] at cautious
      exact (cautious ok token i ne.symm index inside held).1 before
    · simp only [Cautious, phase, CautiousIn] at cautious
      rw [same] at cautious
      exact cautious i ne.symm index inside held before
  · -- it has failed a check: nobody had its token
    rcases effect.holds_cases holds with old | ⟨_, other_set, -⟩ | ⟨_, _, other_set, -⟩
    · rw [region] at token old
      simp only [Cautious, phase, CautiousIn] at cautious
      exact fails (cautious ok token j ne other (inside_of_holds shaped old) old).2
    · cases other_set
      exact ne rfl
    · cases other_set
      exact ne rfl
  · rcases effect.holds_cases holds with old | ⟨_, other_set, -⟩ | ⟨_, _, other_set, -⟩
    · rw [region] at old
      simp only [Cautious, phase, CautiousIn] at cautious
      exact cautious j ne other (inside_of_holds shaped old) old live mem differs meets
    · cases other_set
      exact ne rfl
    · cases other_set
      exact ne rfl

theorem Ledger.step (ledger : s.Ledger) (moves : Moves s t a) : t.Ledger where
  shaped := moves.shaped
  books := ledger.books.step ledger.shaped moves.shaped moves.effect
  accounts := ledger.accounts.step moves.effect

/-- A set that calls the provider's release has the token of the call, and no other set owns it. -/
theorem Ledger.call_unowned (ledger : s.Ledger) (unshared : s.Unshared) (effect : Effect s t a)
    {call : ReleaseCall ι} (pushed : t.calls = call :: s.calls) :
    (∃ index, s.Holds call.set index call.token) ∧ ∀ j ≠ call.set, ¬ s.Owns j call.token := by
  rcases effect.calls_cases with same | ⟨i, index, before, -, null, calls⟩
  · rw [same] at pushed
    exact absurd (congrArg List.length pushed) (by simp)
  · rw [pushed] at calls
    cases calls
    refine ⟨⟨index, ?_, rfl⟩, ?_⟩
    · rcases before with owned | doomed
      · exact .inr (.inl owned)
      · exact .inr (.inr doomed)
    rintro j ne ⟨other, owned', same⟩
    rcases before with owned | doomed
    · cases ledger.books.region_of_token (registered_of_owned owned) (registered_of_owned owned')
        same.symm
      exact ne rfl
    · exact unshared i index doomed null j ne other ⟨.inr (.inl owned'), same⟩

/-- While every answer is cautious, a set calls the provider's release only with a token that it has
and no other set owns, and each call gives back another answer that the provider gave to that set
with that token. -/
theorem release_calls_own_tokens {start : RegionProcess ι} (initial : start.Initial)
    {actions : List (RegionAction ι)} (cautious : RunMeets act Cautious start actions)
    (ran : runActions act start actions = some s) :
    (∀ a t call, s.act a = some t → t.calls = call :: s.calls →
      (∃ index, s.Holds call.set index call.token) ∧ ∀ j ≠ call.set, ¬ s.Owns j call.token) ∧
    (s.calls.map (·.answer)).Nodup ∧
    ∀ call ∈ s.calls, s.Answered call.answer call.set call.token := by
  have keeps : ∀ (s : RegionProcess ι) a t, s.Ledger ∧ s.Unshared → s.Cautious a →
      s.act a = some t → t.Ledger ∧ t.Unshared := by
    rintro s a t ⟨ledger, unshared⟩ met step
    have moves := act_moves ledger.shaped step
    exact ⟨ledger.step moves, unshared.step ledger.shaped met moves.effect⟩
  obtain ⟨ledger, unshared⟩ :=
    RunMeets.invariant keeps ⟨initial.ledger, initial.unshared⟩ cautious ran
  refine ⟨fun a t call step pushed => ?_, ledger.accounts.once, fun call => ledger.accounts.called⟩
  exact ledger.call_unowned unshared (act_moves ledger.shaped step).effect pushed

end Cautious

/-! ## A provider that hands out a token twice -/

/-- A row of eight bytes. -/
def smallRow : MemoryPolicyRow := { accountedBytes := 8 }

/-- An allocation of eight bytes at this address. -/
def smallAllocation (token base : ℕ) : MemoryProviderAllocation :=
  { token := token, allocationBase := base, allocationBytes := 8, usableData := base,
    usableBytes := 8, committedBytes := 8, alignment := 16 }

/-- Two sets of one region. -/
def twoSets : RegionProcess (Fin 2) where
  sets _ := { rows := [some smallRow] }

theorem twoSets_initial : twoSets.Initial :=
  ⟨fun _ _ => rfl, fun _ => rfl, rfl, rfl, rfl, rfl⟩

/-- One set acquires its region; the provider answers the other one with the same token. -/
def tokenTwice (second : MemoryProviderAllocation) : List (RegionAction (Fin 2)) :=
  [.beginAcquire 1, .advance 1 (.ok, smallAllocation 5 64), .advance 1 (.ok, {}),
    .beginAcquire 0, .advance 0 (.ok, second)]

/-- The answer also fits the row: the second set gives the region up when it is to be registered, and
the first one releases it alone. -/
def tokenGivenUp : List (RegionAction (Fin 2)) :=
  tokenTwice (smallAllocation 5 64) ++
    [.advance 0 (.ok, {}), .advance 1 (.ok, {}), .beginRelease 1]

theorem release_calls_own_tokens_valid :
    ∃ s, runActions act twoSets tokenGivenUp = some s ∧
      (∀ a t call, s.act a = some t → t.calls = call :: s.calls →
        (∃ index, s.Holds call.set index call.token) ∧ ∀ j ≠ call.set, ¬ s.Owns j call.token) ∧
      (s.calls.map (·.answer)).Nodup ∧
      ∀ call ∈ s.calls, s.Answered call.answer call.set call.token := by
  have cautious : RunMeets act Cautious twoSets tokenGivenUp := by decide +kernel
  obtain ⟨s, ran⟩ : ∃ s, runActions act twoSets tokenGivenUp = some s :=
    Option.isSome_iff_exists.mp (by decide +kernel)
  exact ⟨s, ran, release_calls_own_tokens twoSets_initial cautious ran⟩

/-- The answer has no bytes: the second set releases the token, which the first one owns. -/
theorem release_of_foreign_token :
    ∃ s t, runActions act twoSets (tokenTwice { token := 5 }) = some s ∧
      s.act (.advance 0 (.ok, {})) = some t ∧ t.calls = ⟨0, 5, 1⟩ :: s.calls ∧ s.Owns 1 5 := by
  refine ⟨_, _, rfl, rfl, ?_, 0, ?_, ?_⟩
  · decide +kernel
  · decide +kernel
  · decide +kernel

end RegionProcess

end RtRuntime

