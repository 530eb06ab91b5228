import RtRuntime.RateDispatch
import RtRuntime.SingleLane

/-!
# Declared-budget admission

The compiler simulates one supercycle at the declared budgets. Here its loop is identified
with the execution of the mandatory CPU records on a single lane, so that admission of one
supercycle carries over to every repetition and every actual run within the budgets.
-/

namespace RtRuntime

/-! ## The lane of mandatory CPU records -/

/-- The record at its declared budget, in the first supercycle. -/
def ReferenceRelease.job (r : ReferenceRelease) : Job :=
  ⟨r.releaseTimeNs.toNat, r.budgetWcetNs.toNat, r.deadlineTimeNs.toNat⟩

namespace CompiledRatePlan

variable (plan : CompiledRatePlan)

/-- The mandatory CPU records in reference order, with their reference indices. -/
def mandatoryRecords : List (ReferenceRelease × ℕ) :=
  plan.releases.zipIdx.filter fun entry => entry.1.mandatoryCpu

/-- One supercycle at the declared budgets. -/
def worstCase : List Job := plan.mandatoryRecords.map fun entry => entry.1.job

/-- Cycle `c` of an execution in which record `i` of cycle `c` takes `duration c i`. -/
def execution (duration : ℕ → ℕ → ℕ) (c : ℕ) : List Job :=
  plan.mandatoryRecords.map fun entry =>
    ⟨entry.1.releaseTimeNs.toNat + c * plan.supercycleNs.toNat, duration c entry.2,
      entry.1.deadlineTimeNs.toNat + c * plan.supercycleNs.toNat⟩

/-- No record takes longer than its declared budget. -/
def WithinBudgets (duration : ℕ → ℕ → ℕ) : Prop :=
  ∀ c, ∀ entry ∈ plan.mandatoryRecords, duration c entry.2 ≤ entry.1.budgetWcetNs.toNat

variable {plan}

theorem execution_within {duration : ℕ → ℕ → ℕ} (h : plan.WithinBudgets duration) (c : ℕ) :
    List.Forall₂ Job.Within (plan.execution duration c)
      (plan.worstCase.map (Job.shift (c * plan.supercycleNs.toNat))) := by
  rw [execution, worstCase, List.map_map, List.forall₂_map_left_iff, List.forall₂_map_right_iff]
  exact List.forall₂_same.mpr fun entry hentry => ⟨rfl, h c entry hentry, rfl⟩

end CompiledRatePlan

/-! ## The admission loop -/

namespace DispatchInputs

variable {inputs : DispatchInputs}

/-- The jobs of the records processed so far. -/
def jobsOf (done : List (ReferenceRelease × ℕ)) : List Job :=
  (done.filter fun entry => entry.1.mandatoryCpu).map fun entry => entry.1.job

theorem jobsOf_append (done rest : List (ReferenceRelease × ℕ)) :
    jobsOf (done ++ rest) = jobsOf done ++ jobsOf rest := by
  rw [jobsOf, List.filter_append, List.map_append]
  rfl

variable {entry : ReferenceRelease × ℕ}

theorem jobsOf_cons_of_pos (h : entry.1.mandatoryCpu = true) (rest : List (ReferenceRelease × ℕ)) :
    jobsOf (entry :: rest) = entry.1.job :: jobsOf rest := by
  simp [jobsOf, h]

theorem jobsOf_cons_of_neg (h : entry.1.mandatoryCpu = false) (rest : List (ReferenceRelease × ℕ)) :
    jobsOf (entry :: rest) = jobsOf rest := by
  simp [jobsOf, h]

/-- The declared finish is the finish on the lane. -/
def OnLane (done : List (ReferenceRelease × ℕ)) (state : AdmissionState) : Prop :=
  MeetsDeadlines 0 (jobsOf done) ∧ state.previousFinish = laneFinish 0 (jobsOf done)

/-- The messages that reject a plan as infeasible. -/
def Infeasible (d : RateDispatchDiagnostic) : Prop :=
  d.message = some "declared-budget admission arithmetic overflowed" ∨
    d.message = some "declared-budget admission found an infeasible mandatory record" ∨
    d.message = some "declared-budget admission is not idle at the supercycle boundary"

variable {state : AdmissionState} {release : ReferenceRelease} {index : ℕ}

/-- An admitted record finishes on the lane by its deadline. -/
theorem admitMandatory_eq_ok {state' : AdmissionState} (hm : release.mandatoryCpu = true)
    (h : admitMandatory state release index = .ok state') :
    release.job.finish state.previousFinish ≤ release.job.deadline ∧
      state'.previousFinish = release.job.finish state.previousFinish := by
  rw [admitMandatory, if_pos hm, bind_eq_ok] at h
  obtain ⟨finish, hadd, h⟩ := h
  rw [reject_bind_eq_ok] at h
  obtain ⟨hle, h⟩ := h
  obtain ⟨-, rfl⟩ := (checkedAdd_eq_some (toNat_le_u64Max _)).mp (orReject_eq_ok.mp hadd)
  cases h
  exact ⟨Nat.le_of_not_lt hle, rfl⟩

/-- A record that is not admitted misses its deadline. -/
theorem admitMandatory_eq_error {d : RateDispatchDiagnostic}
    (h : admitMandatory state release index = .error d) :
    release.mandatoryCpu = true ∧
      ¬ release.job.finish state.previousFinish ≤ release.job.deadline := by
  by_cases hm : release.mandatoryCpu = true
  swap
  · rw [admitMandatory, if_neg hm] at h
    cases h
  refine ⟨hm, fun hle => ?_⟩
  rw [admitMandatory, if_pos hm, bind_eq_error] at h
  have hfits : checkedAdd (max state.previousFinish release.releaseTimeNs.toNat)
      release.budgetWcetNs.toNat = some (release.job.finish state.previousFinish) :=
    -- a finish within the deadline is within the machine range
    (checkedAdd_eq_some (toNat_le_u64Max _)).mpr ⟨hle.trans (toNat_le_u64Max _), rfl⟩
  rcases h with h | ⟨finish, hadd, h⟩
  · obtain ⟨hnone, -⟩ := orReject_eq_error.mp h
    rw [hfits] at hnone
    cases hnone
  · rw [orReject_eq_ok, hfits, Option.some.injEq] at hadd
    subst hadd
    rcases reject_bind_eq_error.mp h with ⟨hgt, -⟩ | ⟨-, h⟩
    · exact absurd hle (Nat.not_le_of_lt hgt)
    · cases h

/-- Other records leave the lane as it is. -/
theorem admitMandatory_of_not_mandatory (hm : release.mandatoryCpu = false) :
    admitMandatory state release index = .ok state :=
  if_neg (by simp [hm])

/-- The step of the loop keeps the declared finish on the lane. -/
theorem OnLane.step {done : List (ReferenceRelease × ℕ)} {state' : AdmissionState}
    (hlane : OnLane done state) (h : inputs.admitRelease state entry = .ok state') :
    OnLane (done ++ [entry]) state' := by
  obtain ⟨hmeets, hfinish⟩ := hlane
  simp only [admitRelease, bind_eq_ok, reject_eq_ok, Unique.exists_iff] at h
  obtain ⟨-, -, devicePhase, -, admitted, hadmit, h⟩ := h
  cases h
  rw [OnLane, jobsOf_append]
  cases hm : entry.1.mandatoryCpu with
  | false =>
    rw [admitMandatory_of_not_mandatory hm] at hadmit
    cases hadmit
    rw [jobsOf_cons_of_neg hm, show jobsOf [] = [] from rfl, List.append_nil]
    exact ⟨hmeets, hfinish⟩
  | true =>
    obtain ⟨hle, hnew⟩ := admitMandatory_eq_ok hm hadmit
    rw [jobsOf_cons_of_pos hm, meetsDeadlines_append, laneFinish_append, ← hfinish]
    exact ⟨⟨hmeets, hle, trivial⟩, hnew⟩

theorem admitMandatory_errors :
    ErrorsSatisfy (fun d => d.status ≠ .ok) (admitMandatory state release index) :=
  .ite (.get (nofun) fun _ => .check (nofun) (.ok _)) (.ok _)

/-- Among the failures of a step only those of the simulation call the plan infeasible. -/
theorem admitRelease_errors :
    ErrorsSatisfy (fun d => d.status ≠ .ok ∧
        (Infeasible d → ∃ e, admitMandatory state entry.1 entry.2 = .error e))
      (inputs.admitRelease state entry) := by
  refine .check ⟨nofun, fun hd => ?_⟩ (.check ⟨nofun, fun hd => ?_⟩
    (.bind (.ite (.map (.orReject fun _ => ⟨nofun, fun hd => ?_⟩)) (.ok _)) fun _ _ =>
      .bind (fun d hd => ⟨admitMandatory_errors d hd, fun _ => ⟨d, hd⟩⟩) fun _ _ => .ok _))
  all_goals simp [Infeasible, dispatchFailureAt] at hd

theorem validate_errors :
    ErrorsSatisfy (fun d => d.status ≠ .ok ∧ ¬ Infeasible d) inputs.validate := by
  refine .check ?_ (.check ?_ (.check ?_ (.bind (.foldlM fun t channel _ => .check ?_
    (.get ?_ fun _ => .get ?_ fun _ => .check ?_ (.ok _))) fun _ _ => .bind (.forM fun _ _ =>
    .reject fun _ => ?_) fun _ _ => .bind (.forM fun _ _ => .reject fun _ => ?_) fun _ _ =>
    .bind (.foldlM fun t binding _ => .check ?_ (.ok _)) fun _ _ => .forM fun _ _ =>
    .reject fun _ => ?_)))
  all_goals simp [Infeasible, dispatchFailure]

/-- When the loop stops at a record for lack of time, that record misses its deadline. -/
theorem OnLane.infeasible {done rest : List (ReferenceRelease × ℕ)} {d : RateDispatchDiagnostic}
    (hlane : OnLane done state) (h : inputs.admitRelease state entry = .error d)
    (hd : Infeasible d) :
    ¬ MeetsDeadlines 0 (jobsOf (done ++ entry :: rest)) := by
  obtain ⟨e, he⟩ := (admitRelease_errors d h).2 hd
  obtain ⟨hm, hmiss⟩ := admitMandatory_eq_error he
  rw [jobsOf_append, jobsOf_cons_of_pos hm, meetsDeadlines_append, ← hlane.2]
  exact fun hmeets => hmiss hmeets.2.1

/-- The whole loop keeps the declared finish on the lane. -/
theorem admitReleases_ok
    (h : inputs.ratePlan.releases.zipIdx.foldlM inputs.admitRelease {} = .ok state) :
    OnLane inputs.ratePlan.releases.zipIdx state :=
  foldlM_invariant h ⟨trivial, rfl⟩ fun _ _ _ _ _ _ hlane hstep => hlane.step hstep

theorem admitReleases_errors :
    ErrorsSatisfy (fun d => d.status ≠ .ok ∧
        (Infeasible d → ¬ MeetsDeadlines 0 inputs.ratePlan.worstCase))
      (inputs.ratePlan.releases.zipIdx.foldlM inputs.admitRelease {}) := by
  intro d hd
  obtain ⟨done, entry, rest, state, hsplit, hdone, hentry⟩ := foldlM_eq_error hd
  have hlane : OnLane done state :=
    foldlM_invariant hdone ⟨trivial, rfl⟩ fun _ _ _ _ _ _ hlane hstep => hlane.step hstep
  refine ⟨(admitRelease_errors d hentry).1, fun hinf => ?_⟩
  have hjobs : inputs.ratePlan.worstCase = jobsOf (done ++ entry :: rest) := by
    rw [← hsplit]
    rfl
  rw [hjobs]
  exact hlane.infeasible hentry hinf

/-- A compiled plan is feasible at the declared budgets. -/
theorem compilePlan_ok {plan : CompiledRateDispatchPlan} (h : inputs.compilePlan = .ok plan) :
    MeetsDeadlines 0 inputs.ratePlan.worstCase ∧
      laneFinish 0 inputs.ratePlan.worstCase ≤ inputs.ratePlan.supercycleNs.toNat := by
  simp only [compilePlan, bind_eq_ok, reject_eq_ok, Unique.exists_iff] at h
  obtain ⟨-, state, hloop, hidle, -⟩ := h
  obtain ⟨hmeets, hfinish⟩ := admitReleases_ok hloop
  refine ⟨hmeets, ?_⟩
  have hle := Nat.le_of_not_lt hidle
  rwa [hfinish] at hle

theorem compilePlan_errors :
    ErrorsSatisfy (fun d => d.status ≠ .ok ∧ (Infeasible d →
        ¬ (MeetsDeadlines 0 inputs.ratePlan.worstCase ∧
          laneFinish 0 inputs.ratePlan.worstCase ≤ inputs.ratePlan.supercycleNs.toNat)))
      inputs.compilePlan := by
  refine .bind (fun d hd => ?_) fun _ _ => .bind (fun d hd => ?_) fun state hloop =>
    .bind (fun d hd => ?_) fun _ _ => .bind (.foldlM fun t group _ => ?_) fun _ _ => .ok _
  · obtain ⟨hstatus, hinf⟩ := validate_errors d hd
    exact ⟨hstatus, fun h => absurd h hinf⟩
  · obtain ⟨hstatus, hinf⟩ := admitReleases_errors d hd
    exact ⟨hstatus, fun h hfeasible => hinf h hfeasible.1⟩
  · obtain ⟨hbusy, rfl⟩ := reject_eq_error.mp hd
    obtain ⟨-, hfinish⟩ := admitReleases_ok hloop
    refine ⟨nofun, fun _ hfeasible => ?_⟩
    rw [hfinish] at hbusy
    exact absurd hfeasible.2 (Nat.not_le_of_lt hbusy)
  · refine .check ⟨nofun, fun hd => ?_⟩ (.ok _)
    simp [Infeasible, dispatchFailureAt] at hd

end DispatchInputs

open DispatchInputs in
/-- An accepted plan meets every mandatory CPU deadline in every repetition of the
supercycle and for every run within the budgets; a plan is rejected as infeasible only if
the run at the declared budgets misses a deadline or is not idle at the end. -/
theorem compileRateDispatch_admission (inputs : DispatchInputs)
    (output : CompiledRateDispatchPlan) :
    let result := compileRateDispatch inputs output
    let plan := inputs.ratePlan
    (result.status = .ok → ∀ duration, plan.WithinBudgets duration → ∀ cycles,
      MeetsDeadlines 0 ((List.range cycles).flatMap (plan.execution duration))) ∧
    (Infeasible result.diagnostic → ¬ (MeetsDeadlines 0 plan.worstCase ∧
      laneFinish 0 plan.worstCase ≤ plan.supercycleNs.toNat)) := by
  intro result plan
  cases hc : inputs.compilePlan with
  | ok candidate =>
    have hresult : result = ⟨.ok, candidate, {}⟩ := by
      simp only [result, compileRateDispatch, hc]
    obtain ⟨hmeets, hidle⟩ := compilePlan_ok hc
    refine ⟨fun _ duration hwithin cycles => ?_, fun hinf => ?_⟩
    · exact (meetsDeadlines_periodic hmeets hidle
        (CompiledRatePlan.execution_within hwithin) cycles).1
    · rw [hresult] at hinf
      simp [Infeasible] at hinf
  | error d =>
    have hresult : result = ⟨d.status, output, d⟩ := by
      simp only [result, compileRateDispatch, hc]
    obtain ⟨hstatus, hmiss⟩ := compilePlan_errors d hc
    rw [hresult]
    exact ⟨fun hok => absurd hok hstatus, hmiss⟩

/-- Two CPU domains of periods 2 and 3, each with a budget of 1. -/
def twoRateDispatch : DispatchInputs where
  graphOwner := 7
  determinismTier := .unspecified
  policy := { maximumDispatchRecordsPerStep := 8 }
  dependencies := []
  ratePlan := (compileRateTimeline 7 2 [PhaseHandle.make 7 1, PhaseHandle.make 7 0]
    [{ name := ['a'], periodNs := 2, substepCount := 1, relativeDeadlineNs := 1, budgetWcetNs := 1 },
      { name := ['b'], periodNs := 3, substepCount := 1, relativeDeadlineNs := 3, budgetWcetNs := 1 }]
    [{ phase := PhaseHandle.make 7 0, domain := RateDomainHandle.make 7 0 },
      { phase := PhaseHandle.make 7 1, domain := RateDomainHandle.make 7 1 }] {}).output
  channels := []
  deviceRatePlan := none

theorem compileRateDispatch_twoRate :
    (compileRateDispatch twoRateDispatch {}).status = .ok ∧
      twoRateDispatch.ratePlan.mandatoryRecords.length = 5 ∧
      ∀ duration, twoRateDispatch.ratePlan.WithinBudgets duration → ∀ cycles,
        MeetsDeadlines 0
          ((List.range cycles).flatMap (twoRateDispatch.ratePlan.execution duration)) :=
  ⟨by decide +kernel, by decide +kernel,
    (compileRateDispatch_admission twoRateDispatch {}).1 (by decide +kernel)⟩

end RtRuntime
