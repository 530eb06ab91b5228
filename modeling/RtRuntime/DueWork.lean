import Mathlib.Algebra.Order.Floor.Div
import RtRuntime.GroupWaits

/-!
# Counting due work

`count_due_rate_work` counts the releases of a window by two ceiling divisions for each domain, and
their records by one stored number for each domain.  Here both are compared with the releases of
the window themselves and with the groups that these map to.
-/

namespace RtRuntime

open List

open StepContext (groupReferences)

/-! ## The records of a group -/

namespace DispatchInputs

variable {inputs : DispatchInputs} {groups : List RateReleaseGroup}

theorem countRecords_eq {records : ℕ → ℕ}
    (loop : groups.foldlM countRecords (fun _ => 0) = .ok records) :
    ∀ group ∈ groups, group.referenceCount ≠ 0 →
      records group.domainRegistrationIndex = group.referenceCount := by
  refine foldlM_invariant (P := fun done t => ∀ group ∈ done, group.referenceCount ≠ 0 →
    t group.domainRegistrationIndex = group.referenceCount) loop (forall_mem_nil _) ?_
  rintro done group rest t t' - ih step
  rw [countRecords, reject_bind_eq_ok] at step
  obtain ⟨agrees, step⟩ := step
  cases step
  refine forall_mem_concat.mpr ⟨fun earlier member counted => ?_, fun _ => Function.update_self ..⟩
  have known := ih earlier member counted
  by_cases same : earlier.domainRegistrationIndex = group.domainRegistrationIndex
  · rw [same] at known ⊢
    rw [Function.update_self]
    omega
  · rw [Function.update_of_ne same, known]

/-- The groups hold all records, and the number stored for a domain is that of its groups. -/
theorem compilePlan_records {plan : CompiledRateDispatchPlan} (h : inputs.compilePlan = .ok plan) :
    (∀ reference < inputs.ratePlan.releases.length,
      ∃ group ∈ plan.groups, reference ∈ groupReferences group) ∧
    ∀ group ∈ plan.groups, group.referenceCount ≠ 0 →
      plan.recordsPerDomainRelease group.domainRegistrationIndex = group.referenceCount := by
  simp only [compilePlan, bind_eq_ok, reject_eq_ok, Unique.exists_iff] at h
  obtain ⟨-, state, loop, -, records, counted, h⟩ := h
  cases h
  refine ⟨fun reference inside => ?_, countRecords_eq counted⟩
  rwa [← mem_range, ← (admitReleases_admitted loop).groups.cover, mem_flatMap] at inside

end DispatchInputs

namespace ActivePlan

/-- The group holds records of the release: records of its domain with its sequence within the
supercycle. -/
def MapsTo (plan : ActivePlan) (release : ℕ × ℕ) (group : RateReleaseGroup) : Prop :=
  group ∈ plan.dispatch.groups ∧ ∃ reference ∈ groupReferences group,
    (plan.release reference).domainRegistrationIndex = release.1 ∧
      (plan.release reference).domainReleaseSequence.toNat =
        release.2 % (plan.domain release.1).releasesPerSupercycle.toNat

/-- The releases of a window, as pairs of a domain and a sequence: as a period is positive, the
sequences are below the end. -/
def dueReleases (plan : ActivePlan) (start stop : ℕ) : Finset (ℕ × ℕ) :=
  (Finset.range plan.domainCount ×ˢ Finset.range stop).filter fun release =>
    start ≤ release.2 * plan.period release.1 ∧ release.2 * plan.period release.1 < stop

variable {plan : ActivePlan} {inputs : DispatchInputs}

theorem domain_eq {index : ℕ} (inside : index < plan.domainCount) :
    plan.ratePlan.domains[index]? = some (plan.domain index) := by
  rw [ActivePlan.domain, getD_eq_getElem _ _ inside]
  exact getElem?_eq_getElem inside

namespace CompiledFrom

variable (h : plan.CompiledFrom inputs)
include h

theorem period_pos (index : ℕ) (inside : index < plan.domainCount) : 0 < plan.period index :=
  h.isTimeline.period_pos _ (mem_of_getElem? (domain_eq inside))

theorem records_eq {release : ℕ × ℕ} {group : RateReleaseGroup} (maps : plan.MapsTo release group) :
    group.referenceCount ≠ 0 ∧ plan.records release.1 = group.referenceCount := by
  obtain ⟨member, reference, inside, is, -⟩ := maps
  have counted : group.referenceCount ≠ 0 := by
    intro zero
    rw [groupReferences, zero] at inside
    cases inside
  obtain ⟨-, domain, -⟩ := h.grouped.members group member reference inside
  refine ⟨counted, ?_⟩
  rw [← (DispatchInputs.compilePlan_records h.compiled).2 group member counted, ← domain, h.rates]
  exact congrArg plan.records is.symm

/-- Some phase is bound to each domain, so each release has records. -/
theorem exists_mapsTo {release : ℕ × ℕ} (inside : release.1 < plan.domainCount) :
    ∃ group, plan.MapsTo release group := by
  have timeline := h.isTimeline
  have domain := domain_eq inside
  have mem := mem_of_getElem? domain
  have cycle_pos : 0 < (plan.domain release.1).releasesPerSupercycle.toNat :=
    Nat.pos_of_mul_pos_right ((timeline.releases_mul _ mem).symm ▸ timeline.supercycle_pos)
  have below := Nat.mod_lt release.2 cycle_pos
  obtain ⟨binding, bound, is⟩ := timeline.domain_bound release.1 inside
  obtain ⟨reference, length, record⟩ := mem_iff_getElem.mp ((timeline.mem_releases _).mpr
    ⟨release.1, _, _, binding, 0, domain, below, bound, is, timeline.substeps_pos _ mem, rfl⟩)
  obtain ⟨group, member, holds⟩ :=
    (DispatchInputs.compilePlan_records h.compiled).1 reference (h.rates ▸ length)
  refine ⟨group, member, reference, holds, ?_⟩
  rw [ActivePlan.release, getD_eq_getElem _ _ length, record]
  exact ⟨(timeline.domain_index _ _ domain).1,
    toNat_ofNat_of_le (below.le.trans (toNat_le_u64Max _))⟩

end CompiledFrom

/-! ## The window -/

section Window

variable (positive : ∀ index < plan.domainCount, 0 < plan.period index) {start stop : ℕ}
include positive

theorem mem_dueReleases {release : ℕ × ℕ} : release ∈ plan.dueReleases start stop ↔
    release.1 < plan.domainCount ∧ start ≤ release.2 * plan.period release.1 ∧
      release.2 * plan.period release.1 < stop := by
  simp only [dueReleases, Finset.mem_filter, Finset.mem_product, Finset.mem_range, and_assoc,
    and_congr_right_iff, and_iff_right_iff_imp]
  intro inside due
  exact (Nat.le_mul_of_pos_right _ (positive _ inside)).trans_lt due.2

/-- In each domain the sequences of the window are an interval. -/
theorem sum_dueReleases (f : ℕ → ℕ) : ∑ release ∈ plan.dueReleases start stop, f release.1 =
    ∑ index ∈ Finset.range plan.domainCount,
      (stop ⌈/⌉ plan.period index - start ⌈/⌉ plan.period index) * f index := by
  rw [Finset.sum_finset_product (plan.dueReleases start stop) (Finset.range plan.domainCount)
    fun index => Finset.Ico (start ⌈/⌉ plan.period index) (stop ⌈/⌉ plan.period index)]
  · simp
  · rintro ⟨index, k⟩
    rw [mem_dueReleases positive, Finset.mem_range, and_congr_right_iff]
    intro inside
    have pos := positive index inside
    rw [Finset.mem_Ico, ceilDiv_le_iff_le_mul pos, ← not_le (a := stop ⌈/⌉ _),
      ceilDiv_le_iff_le_mul pos, not_le, Nat.mul_comm]

end Window

end ActivePlan

/-! ## The counts -/

/-- The counts fit their words. -/
def RateDueCounts.checked (counts : RateDueCounts) : Except Status RateDueCounts :=
  if counts.domainReleases ≤ u64Max ∧ counts.referenceRecords ≤ u64Max then .ok counts
  else .error .capacityExceeded

/-- The machine's division is the ceiling: its increment does not wrap. -/
theorem ceilDiv_eq {value divisor : ℕ} (pos : 0 < divisor) (fits : value ≤ u64Max) :
    ceilDiv value divisor = some (value ⌈/⌉ divisor) := by
  have division := Nat.div_add_mod value divisor
  rw [ceilDiv, if_neg pos.ne']
  split
  next remainder =>
    have fitting : value / divisor ≠ u64Max := by
      have := Nat.le_mul_of_pos_left (value / divisor) pos
      omega
    rw [if_neg fitting]
    refine congrArg some (le_antisymm ?_ ?_)
    · rw [Nat.succ_le_iff, ← not_le, ceilDiv_le_iff_le_mul pos]
      omega
    · have := Nat.mod_lt value pos
      rw [ceilDiv_le_iff_le_mul pos, Nat.mul_succ]
      omega
  next exactly =>
    have cancel : (divisor * (value / divisor)) ⌈/⌉ divisor = value / divisor := smul_ceilDiv pos _
    rw [← cancel, Nat.mul_div_cancel' (Nat.dvd_of_mod_eq_zero (not_not.mp exactly))]

namespace ActivePlan

/-- `count_due_rate_work` with its output, which is written when all domains have been counted. -/
def countDueRateWork (plan : ActivePlan) (cursorNs endNs : ℕ) (output : RateDueCounts) :
    Status × RateDueCounts :=
  match RtRuntime.countDueRateWork plan.ratePlan plan.dispatch cursorNs endNs with
  | .ok candidate => (.ok, candidate)
  | .error status => (status, output)

/-- The releases of one domain in the window. -/
def releasesIn (plan : ActivePlan) (start stop index : ℕ) : ℕ :=
  stop ⌈/⌉ plan.period index - start ⌈/⌉ plan.period index

variable {plan : ActivePlan} {inputs : DispatchInputs} {start stop : ℕ}

section Loop

variable (order : start ≤ stop) (fits : stop ≤ u64Max)
  (positive : ∀ index < plan.domainCount, 0 < plan.period index)
  (nonzero : ∀ index < plan.domainCount, plan.records index ≠ 0)

include order fits positive nonzero

/-- One domain: the only thing that can fail is the product. -/
theorem countDueDomainReleases_eq {index : ℕ} (inside : index < plan.domainCount) :
    countDueDomainReleases plan.ratePlan plan.dispatch index start stop =
      (orReject (checkedMultiply (plan.releasesIn start stop index) (plan.records index))
        .capacityExceeded).map (⟨plan.releasesIn start stop index, ·⟩) := by
  have pos := positive index inside
  have domain : plan.ratePlan.domains[index]? = some (plan.domain index) := domain_eq inside
  have valid : ¬ ((plan.domain index).periodNs = 0 ∨
      plan.dispatch.recordsPerDomainRelease index = 0) := by
    rintro (zero | zero)
    · rw [ActivePlan.period, zero] at pos
      cases pos
    · exact nonzero index inside zero
  have first := ceilDiv_eq pos (order.trans fits)
  have last := ceilDiv_eq pos fits
  have ordered := ((gc_mul_ceilDiv pos).monotone_l order).not_gt
  simp only [countDueDomainReleases, releasesIn, ActivePlan.records, ActivePlan.period] at *
  simp only [reject, orReject, domain, if_neg order.not_gt, if_neg valid, first, last,
    if_neg ordered, bind, Except.bind]
  cases checkedMultiply _ _ <;> rfl

theorem addDueDomain_eq (counts : RateDueCounts) {index : ℕ} (inside : index < plan.domainCount) :
    addDueDomain plan.ratePlan plan.dispatch start stop counts index =
      RateDueCounts.checked ⟨counts.domainReleases + plan.releasesIn start stop index,
        counts.referenceRecords + plan.releasesIn start stop index * plan.records index⟩ := by
  have pos := positive index inside
  have small : plan.releasesIn start stop index ≤ u64Max := by
    refine (Nat.sub_le _ _).trans (le_trans ?_ fits)
    rw [ceilDiv_le_iff_le_mul pos]
    exact Nat.le_mul_of_pos_left _ pos
  rw [addDueDomain, countDueDomainReleases_eq order fits positive nonzero inside,
    checkedMultiply_eq, RateDueCounts.checked]
  by_cases product : plan.releasesIn start stop index * plan.records index ≤ u64Max
  · rw [if_pos product]
    simp only [orReject, Except.map, Except.mapError, checkedAdd_eq small, checkedAdd_eq product,
      bind, Except.bind]
    split_ifs <;> first | rfl | omega
  · rw [if_neg product, if_neg (by dsimp only; omega)]
    rfl

theorem countLoop_eq {count : ℕ} (inside : count ≤ plan.domainCount) :
    (range count).foldlM (addDueDomain plan.ratePlan plan.dispatch start stop) {} =
      RateDueCounts.checked ⟨∑ index ∈ Finset.range count, plan.releasesIn start stop index,
        ∑ index ∈ Finset.range count, plan.releasesIn start stop index * plan.records index⟩ := by
  induction count with
  | zero => rfl
  | succ count ih =>
    rw [range_succ, foldlM_append, ih (Nat.le_of_succ_le inside), Finset.sum_range_succ,
      Finset.sum_range_succ, RateDueCounts.checked]
    split_ifs with earlier
    · exact (bind_pure _).trans (addDueDomain_eq order fits positive nonzero _ inside)
    · rw [RateDueCounts.checked, if_neg (by dsimp only at *; omega)]
      rfl

end Loop

/-- The releases of a window and the records that are stored for them. -/
def dueCounts (plan : ActivePlan) (start stop : ℕ) : RateDueCounts :=
  ⟨(plan.dueReleases start stop).card,
    ∑ release ∈ plan.dueReleases start stop, plan.records release.1⟩

/-- Counting the due work of a compiled plan is exact. -/
theorem CompiledFrom.countDueRateWork_eq (h : plan.CompiledFrom inputs) (order : start ≤ stop)
    (fits : stop ≤ u64Max) (output : RateDueCounts) :
    plan.countDueRateWork start stop output =
      if (plan.dueCounts start stop).domainReleases ≤ u64Max ∧
        (plan.dueCounts start stop).referenceRecords ≤ u64Max then
        (.ok, plan.dueCounts start stop) else (.capacityExceeded, output) := by
  have loop := countLoop_eq order fits h.period_pos (fun index inside => by
    obtain ⟨group, maps⟩ : ∃ group, plan.MapsTo (index, 0) group := h.exists_mapsTo inside
    exact (h.records_eq maps).2 ▸ (h.records_eq maps).1) le_rfl
  have counts : plan.dueCounts start stop = ⟨∑ index ∈ Finset.range plan.domainCount,
      plan.releasesIn start stop index, ∑ index ∈ Finset.range plan.domainCount,
        plan.releasesIn start stop index * plan.records index⟩ := by
    rw [dueCounts, Finset.card_eq_sum_ones, sum_dueReleases h.period_pos fun _ => 1,
      sum_dueReleases h.period_pos]
    simp [releasesIn]
  have exactly : RtRuntime.countDueRateWork plan.ratePlan plan.dispatch start stop =
      (plan.dueCounts start stop).checked := by
    rw [RtRuntime.countDueRateWork, reject, if_neg order.not_gt, counts, ← loop]
    rfl
  rw [ActivePlan.countDueRateWork, exactly, RateDueCounts.checked]
  split_ifs <;> rfl

theorem CompiledFrom.dueCounts_add (h : plan.CompiledFrom inputs) {middle : ℕ}
    (before : start ≤ middle) (after : middle ≤ stop) :
    (plan.dueCounts start stop).domainReleases =
      (plan.dueCounts start middle).domainReleases + (plan.dueCounts middle stop).domainReleases ∧
    (plan.dueCounts start stop).referenceRecords =
      (plan.dueCounts start middle).referenceRecords +
        (plan.dueCounts middle stop).referenceRecords := by
  have sum (f : ℕ → ℕ) : ∑ release ∈ plan.dueReleases start stop, f release.1 =
      ∑ release ∈ plan.dueReleases start middle, f release.1 +
        ∑ release ∈ plan.dueReleases middle stop, f release.1 := by
    simp only [sum_dueReleases h.period_pos, ← Finset.sum_add_distrib, ← Nat.add_mul]
    refine Finset.sum_congr rfl fun index inside => ?_
    have mono := (gc_mul_ceilDiv (h.period_pos index (Finset.mem_range.mp inside))).monotone_l
    rw [Nat.add_comm, Nat.sub_add_sub_cancel (mono after) (mono before)]
  simp only [dueCounts, Finset.card_eq_sum_ones]
  exact ⟨sum fun _ => 1, sum _⟩

end ActivePlan

/-- Counting the due work of a window is exact: it succeeds exactly if both counts fit 64 bits, and
then they are the number of releases `(domain, k)` with `k * period` in the window and the number of
records of the groups that these map to; otherwise the output is left as it was.  So the counts of a
window and of the one behind it sum to those of both. -/
theorem countDueRateWork_exact (plan : ActivePlan) (h : plan.Finalized) {start stop : ℕ}
    (order : start ≤ stop) (fits : stop ≤ u64Max) (output : RateDueCounts) :
    (∀ release, release ∈ plan.dueReleases start stop ↔
      release.1 < plan.domainCount ∧ start ≤ release.2 * plan.period release.1 ∧
        release.2 * plan.period release.1 < stop) ∧
    (∀ release ∈ plan.dueReleases start stop, ∃ group, plan.MapsTo release group) ∧
    (∀ groupOf : ℕ × ℕ → RateReleaseGroup,
      (∀ release ∈ plan.dueReleases start stop, plan.MapsTo release (groupOf release)) →
      plan.countDueRateWork start stop output =
        if (plan.dueReleases start stop).card ≤ u64Max ∧
          ∑ release ∈ plan.dueReleases start stop, (groupOf release).referenceCount ≤ u64Max then
          (.ok, ⟨(plan.dueReleases start stop).card,
            ∑ release ∈ plan.dueReleases start stop, (groupOf release).referenceCount⟩)
        else (.capacityExceeded, output)) ∧
    ∀ later, stop ≤ later → later ≤ u64Max → ∀ counts,
      plan.countDueRateWork start later output = (.ok, counts) →
      ∃ first second, plan.countDueRateWork start stop output = (.ok, first) ∧
        plan.countDueRateWork stop later output = (.ok, second) ∧
        counts.domainReleases = first.domainReleases + second.domainReleases ∧
        counts.referenceRecords = first.referenceRecords + second.referenceRecords := by
  obtain ⟨inputs, compiled⟩ := ActivePlan.finalized_iff.mp h
  have mem (release : ℕ × ℕ) : release ∈ plan.dueReleases start stop ↔ _ :=
    ActivePlan.mem_dueReleases compiled.period_pos
  refine ⟨mem, fun release due => compiled.exists_mapsTo ((mem release).mp due).1,
    fun groupOf maps => ?_, fun later behind last counts whole => ?_⟩
  · rw [compiled.countDueRateWork_eq order fits, ActivePlan.dueCounts, Finset.sum_congr rfl
      fun release due => (compiled.records_eq (maps release due)).2]
  · obtain ⟨releases, records⟩ := compiled.dueCounts_add order behind
    rw [compiled.countDueRateWork_eq (order.trans behind) last] at whole
    split_ifs at whole with representable
    · cases whole
      refine ⟨_, _, ?_, ?_, releases, records⟩
      · rw [compiled.countDueRateWork_eq order fits, if_pos (by omega)]
      · rw [compiled.countDueRateWork_eq behind last, if_pos (by omega)]
    · cases whole

/-- Four releases of the pipeline with two records each, in windows that end within a period. -/
theorem pipelinePlan_counts : ∃ first second,
    pipelinePlan.countDueRateWork 0 15 {} = (.ok, first) ∧
      pipelinePlan.countDueRateWork 15 35 {} = (.ok, second) ∧
      4 = first.domainReleases + second.domainReleases ∧
      8 = first.referenceRecords + second.referenceRecords :=
  (countDueRateWork_exact pipelinePlan pipelinePlan_finalized (by decide : 0 ≤ 15) (by decide)
    {}).2.2.2 35 (by decide) (by decide) ⟨4, 8⟩ (by decide +kernel)

end RtRuntime
