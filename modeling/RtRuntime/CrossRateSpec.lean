import RtRuntime.CrossRateData
import RtRuntime.TimelineSpec

/-!
# The selection tables give every consumer the newest sample

The reference plan repeats with the supercycle. A record of the repeated schedule is a
pair of a cycle and a reference index; the records are ordered by absolute release time,
domain, compiled phase position and substep, which is the lexicographic order of the
pairs (`IsTimeline.unrolledKey_lt_iff`). Against this order a single selection is shown
right in every cycle (`selection_correct`); how the selections are stored, and the held
marks across the seam of two cycles, is the matter of the next file.
-/

namespace RtRuntime

open CompiledRatePlan List

/-! ## The repeated schedule -/

/-- A record of the repeated schedule: its cycle and its reference index. -/
abbrev UnrolledRecord := ℕ × ℕ

namespace CompiledRatePlan

variable (plan : CompiledRatePlan)

/-- The release at a reference index. -/
def release (index : ℕ) : ReferenceRelease := plan.releases.getD index {}

/-- Absolute release time of a record. -/
def unrolledTime (x : UnrolledRecord) : ℕ :=
  x.1 * plan.supercycleNs.toNat + (plan.release x.2).releaseTimeNs.toNat

/-- The key of the total reference order over all cycles. -/
def unrolledKey (x : UnrolledRecord) : ℕ ×ₗ ℕ ×ₗ ℕ ×ₗ ℕ :=
  toLex (plan.unrolledTime x, toLex ((plan.release x.2).domainRegistrationIndex,
    toLex ((plan.release x.2).compiledPhaseIndex, (plan.release x.2).substepOrdinal.toNat)))

/-- `x` is a record of the phase. -/
def IsRecordOf (phase : PhaseHandle) (x : UnrolledRecord) : Prop :=
  x.2 < plan.releases.length ∧ (plan.release x.2).phase = phase

/-- `x` is the last record of the phase that strictly precedes `y`. -/
structure IsLastBefore (phase : PhaseHandle) (x y : UnrolledRecord) : Prop where
  record : plan.IsRecordOf phase x
  before : plan.unrolledKey x < plan.unrolledKey y
  last : ∀ z, plan.IsRecordOf phase z → plan.unrolledKey z < plan.unrolledKey y →
    plan.unrolledKey z ≤ plan.unrolledKey x

end CompiledRatePlan

theorem CompiledRatePlan.release_mem {plan : CompiledRatePlan} {i : ℕ}
    (hi : i < plan.releases.length) : plan.release i ∈ plan.releases := by
  rw [release, getD_eq_getElem _ _ hi]
  exact List.getElem_mem hi

namespace IsTimeline

variable {plan : CompiledRatePlan} (h : IsTimeline plan)
include h

theorem key_lt_key {i j : ℕ} (hij : i < j) (hj : j < plan.releases.length) :
    (plan.release i).key < (plan.release j).key := by
  have hi := hij.trans hj
  rw [release, release, getD_eq_getElem _ _ hi,
    getD_eq_getElem _ _ hj]
  exact (pairwise_iff_getElem.mp h.sorted) i j hi hj hij

/-- Release times do not decrease along the table. -/
theorem releaseTime_le {i j : ℕ} (hij : i ≤ j) (hj : j < plan.releases.length) :
    (plan.release i).releaseTimeNs.toNat ≤ (plan.release j).releaseTimeNs.toNat := by
  rcases hij.eq_or_lt with rfl | hlt
  · exact le_rfl
  · have hkey := h.key_lt_key hlt hj
    rcases Prod.Lex.lt_iff.mp hkey with h1 | h1
    · exact h1.le
    · exact h1.1.le

variable {x y : UnrolledRecord}

/-- Records compare by cycle, then by reference index. -/
theorem unrolledKey_strictMonoOn :
    StrictMonoOn (fun x : ℕ ×ₗ ℕ => plan.unrolledKey (ofLex x))
      {x | (ofLex x).2 < plan.releases.length} := by
  intro x hx y hy hxy
  rcases Prod.Lex.lt_iff.mp hxy with hlt | ⟨heq, hlt⟩
  · refine Prod.Lex.lt_iff.mpr (Or.inl ?_)
    have hx' := h.releaseTime_lt (release_mem hx)
    have hcycle : ((ofLex x).1 + 1) * plan.supercycleNs.toNat ≤
        (ofLex y).1 * plan.supercycleNs.toNat := Nat.mul_le_mul_right _ hlt
    change plan.unrolledTime (ofLex x) < plan.unrolledTime (ofLex y)
    rw [unrolledTime, unrolledTime]
    rw [Nat.add_mul] at hcycle
    omega
  · rcases Prod.Lex.lt_iff.mp (h.key_lt_key hlt hy) with h1 | ⟨h1, h2⟩
    · refine Prod.Lex.lt_iff.mpr (Or.inl ?_)
      change plan.unrolledTime (ofLex x) < plan.unrolledTime (ofLex y)
      rw [unrolledTime, unrolledTime, heq]
      exact Nat.add_lt_add_left h1 _
    · refine Prod.Lex.lt_iff.mpr (Or.inr ⟨?_, h2⟩)
      change plan.unrolledTime (ofLex x) = plan.unrolledTime (ofLex y)
      rw [unrolledTime, unrolledTime, heq]
      exact congrArg _ h1

section

variable (hx : x.2 < plan.releases.length) (hy : y.2 < plan.releases.length)
include hx hy

theorem unrolledKey_lt_iff : plan.unrolledKey x < plan.unrolledKey y ↔
      x.1 < y.1 ∨ (x.1 = y.1 ∧ x.2 < y.2) :=
  (h.unrolledKey_strictMonoOn.lt_iff_lt hx hy).trans Prod.Lex.toLex_lt_toLex

theorem unrolledKey_le_iff : plan.unrolledKey x ≤ plan.unrolledKey y ↔
      x.1 < y.1 ∨ (x.1 = y.1 ∧ x.2 ≤ y.2) :=
  (h.unrolledKey_strictMonoOn.le_iff_le hx hy).trans Prod.Lex.toLex_le_toLex

end

/-- The last record before one, in the coordinates of the tables. -/
theorem isLastBefore_iff {phase : PhaseHandle} (hy : y.2 < plan.releases.length) :
    plan.IsLastBefore phase x y ↔
      plan.IsRecordOf phase x ∧ (x.1 < y.1 ∨ (x.1 = y.1 ∧ x.2 < y.2)) ∧
      ∀ z, plan.IsRecordOf phase z → (z.1 < y.1 ∨ (z.1 = y.1 ∧ z.2 < y.2)) →
        z.1 < x.1 ∨ (z.1 = x.1 ∧ z.2 ≤ x.2) := by
  constructor
  · rintro ⟨hrec, hbefore, hlast⟩
    refine ⟨hrec, (h.unrolledKey_lt_iff hrec.1 hy).mp hbefore, fun z hz hzy => ?_⟩
    exact (h.unrolledKey_le_iff hz.1 hrec.1).mp
      (hlast z hz ((h.unrolledKey_lt_iff hz.1 hy).mpr hzy))
  · rintro ⟨hrec, hbefore, hlast⟩
    refine ⟨hrec, (h.unrolledKey_lt_iff hrec.1 hy).mpr hbefore, fun z hz hzy => ?_⟩
    exact (h.unrolledKey_le_iff hz.1 hrec.1).mpr
      (hlast z hz ((h.unrolledKey_lt_iff hz.1 hy).mp hzy))

/-- At most one record is the last before a given one. -/
theorem isLastBefore_unique {phase : PhaseHandle} {x' : UnrolledRecord}
    (hy : y.2 < plan.releases.length) (hx : plan.IsLastBefore phase x y)
    (hx' : plan.IsLastBefore phase x' y) : x = x' := by
  obtain ⟨hrec, hbef, hlast⟩ := (h.isLastBefore_iff hy).mp hx
  obtain ⟨hrec', hbef', hlast'⟩ := (h.isLastBefore_iff hy).mp hx'
  have h1 := hlast x' hrec' hbef'
  have h2 := hlast' x hrec hbef
  exact Prod.ext (by omega) (by omega)

end IsTimeline

/-! ## References of a phase -/

namespace CrossRateInputs

variable {inputs : CrossRateInputs}

theorem mem_referencesOf {phase : PhaseHandle} {i : ℕ} :
    i ∈ inputs.referencesOf phase ↔
      i < inputs.ratePlan.releases.length ∧ (inputs.ratePlan.release i).phase = phase := by
  simp [referencesOf, release]

theorem referencesOf_sorted (phase : PhaseHandle) :
    (inputs.referencesOf phase).Pairwise (· < ·) :=
  pairwise_lt_range.filter _

/-- The last reference of a phase is its largest. -/
theorem le_getLast {l : List ℕ} (hl : l.Pairwise (· < ·)) {w : ℕ} (hw : l.getLast? = some w) :
    w ∈ l ∧ ∀ q ∈ l, q ≤ w := by
  obtain ⟨init, rfl⟩ := getLast?_eq_some_iff.mp hw
  have hbefore := (pairwise_concat.mp hl).2
  exact ⟨by simp, forall_mem_concat.mpr ⟨fun q hq => (hbefore q hq).le, le_rfl⟩⟩

section

variable {l : List ℕ} (hl : l.Pairwise (· < ·)) {j : ℕ}
include hl

theorem inCycleReference_eq_getLast : inCycleReference l j = (l.filter (· < j)).getLast? := by
  rw [inCycleReference, (takeWhile_dropWhile_eq_filter hl fun a _ b _ hab hb => ?_).1]
  exact decide_eq_true (hab.trans (of_decide_eq_true hb))

/-- The last element of a `takeWhile (· < j)` is the largest below `j`. -/
theorem inCycleReference_eq_some {p : ℕ} (hp : inCycleReference l j = some p) :
    p ∈ l ∧ p < j ∧ ∀ q ∈ l, q < j → q ≤ p := by
  rw [inCycleReference_eq_getLast hl] at hp
  obtain ⟨hmem, hmax⟩ := le_getLast (hl.filter _) hp
  simp only [mem_filter, decide_eq_true_eq] at hmem hmax
  exact ⟨hmem.1, hmem.2, fun q hq hqj => hmax q ⟨hq, hqj⟩⟩

theorem inCycleReference_eq_none (hp : inCycleReference l j = none) : ∀ q ∈ l, ¬ q < j := by
  rw [inCycleReference_eq_getLast hl, getLast?_eq_none_iff, filter_eq_nil_iff] at hp
  simpa using hp

end

/-! ## One selection -/

/-- A selection is right for the consumer record `(c, j)`. -/
structure SelectionCorrect (plan : CompiledRatePlan) (channel : CrossRateChannelSpec) (c j : ℕ)
    (s : CompiledCrossRateSelection) : Prop where
  consumer : s.consumerReferenceIndex = some j
  /-- the initial sample is read exactly when nothing was produced before -/
  initial : s.provenance = .initialSample ↔ ∀ x, plan.IsRecordOf channel.producer x →
    ¬ plan.unrolledKey x < plan.unrolledKey (c, j)
  initial_age : s.provenance = .initialSample → c = 0 ∧ s.producerReferenceIndex = none ∧
    s.ageNs.toNat = plan.unrolledTime (c, j)
  /-- otherwise the last producer record before, with its cycle and exact age -/
  produced : s.provenance = .produced → ∃ x, plan.IsLastBefore channel.producer x (c, j) ∧
    s.producerReferenceIndex = some x.2 ∧ (x.1 : ℤ) = c + s.sourceCycleOffset ∧
    s.ageNs.toNat + plan.unrolledTime x = plan.unrolledTime (c, j) ∧
    s.producerReleaseSequence = (plan.release x.2).domainReleaseSequence ∧
    s.producerSubstepOrdinal = (plan.release x.2).substepOrdinal
  fresh : s.freshness = .fresh ↔ s.ageNs.toNat ≤ channel.maximumAgeNs.toNat

theorem freshnessOf_eq_fresh {maximumAge age : ℕ} (hage : age ≤ u64Max) :
    freshnessOf maximumAge age = .fresh ↔ age ≤ maximumAge := by
  unfold freshnessOf
  split_ifs with hcase
  · simp only [true_iff]
    omega
  · simp only [false_iff]
    omega

section Selection

variable {channel : CrossRateChannelSpec} {channelIndex : ℕ}
  {producerBinding consumerBinding : CompiledRateBinding} {j : ℕ}

/-- The selection of the source with the channel's own producer references. -/
def selection (inputs : CrossRateInputs) (channel : CrossRateChannelSpec) (channelIndex : ℕ)
    (producerBinding consumerBinding : CompiledRateBinding) (j : ℕ) (steady : Bool) :
    CompiledCrossRateSelection :=
  inputs.makeSelection channel channelIndex producerBinding consumerBinding
    (inputs.referencesOf channel.producer) j steady

/-- A sample produced earlier in the consumer's own cycle. -/
theorem selection_of_inCycle {p : ℕ} (channelIndex : ℕ)
    (producerBinding consumerBinding : CompiledRateBinding) (steady : Bool)
    (hp : inCycleReference (inputs.referencesOf channel.producer) j = some p)
    (htime : (inputs.ratePlan.release p).releaseTimeNs.toNat ≤
      (inputs.ratePlan.release j).releaseTimeNs.toNat) :
    let s := inputs.selection channel channelIndex producerBinding consumerBinding j steady
    s.provenance = .produced ∧ s.producerReferenceIndex = some p ∧ s.sourceCycleOffset = 0 ∧
      s.ageNs.toNat = (inputs.ratePlan.release j).releaseTimeNs.toNat -
        (inputs.ratePlan.release p).releaseTimeNs.toNat ∧
      s.producerReleaseSequence = (inputs.ratePlan.release p).domainReleaseSequence ∧
      s.producerSubstepOrdinal = (inputs.ratePlan.release p).substepOrdinal := by
  have hage : checkedAge inputs.ratePlan.supercycleNs.toNat
      (inputs.ratePlan.release p).releaseTimeNs.toNat
      (inputs.ratePlan.release j).releaseTimeNs.toNat false =
      some ((inputs.ratePlan.release j).releaseTimeNs.toNat -
        (inputs.ratePlan.release p).releaseTimeNs.toNat) := by
    simp [checkedAge, htime]
  unfold release at hage htime ⊢
  have hle := toNat_le_u64Max (inputs.ratePlan.releases.getD j {}).releaseTimeNs
  simp only [selection, makeSelection, hp, Option.isNone_some, Bool.and_false,
    Bool.false_eq_true, if_false, Option.getD_some, hage, Option.isSome_some, if_true, true_and]
  exact ⟨toNat_ofNat_of_le (by omega), trivial⟩

/-- The first-cycle selection without an earlier producer release. -/
theorem selection_initial (channelIndex : ℕ)
    (producerBinding consumerBinding : CompiledRateBinding)
    (hp : inCycleReference (inputs.referencesOf channel.producer) j = none) :
    let s := inputs.selection channel channelIndex producerBinding consumerBinding j false
    s.provenance = .initialSample ∧ s.producerReferenceIndex = none ∧ s.sourceCycleOffset = 0 ∧
      s.ageNs = (inputs.ratePlan.release j).releaseTimeNs := by
  simp [selection, makeSelection, hp, release]

/-- The repeating selection without an earlier release in the cycle: the last producer
release of the cycle before. -/
theorem selection_wrap {w : ℕ}
    (hp : inCycleReference (inputs.referencesOf channel.producer) j = none)
    (hw : (inputs.referencesOf channel.producer).getLast? = some w)
    (hrep : (inputs.selection channel channelIndex producerBinding consumerBinding j
      true).producerReferenceIndex ≠ none) :
    let s := inputs.selection channel channelIndex producerBinding consumerBinding j true
    s.provenance = .produced ∧ s.producerReferenceIndex = some w ∧ s.sourceCycleOffset = -1 ∧
      s.ageNs.toNat = inputs.ratePlan.supercycleNs.toNat -
        (inputs.ratePlan.release w).releaseTimeNs.toNat +
        (inputs.ratePlan.release j).releaseTimeNs.toNat ∧
      s.producerReleaseSequence = (inputs.ratePlan.release w).domainReleaseSequence ∧
      s.producerSubstepOrdinal = (inputs.ratePlan.release w).substepOrdinal := by
  unfold release
  simp only [selection, makeSelection, hp, hw, Option.isNone_none, Bool.not_true, Bool.false_and,
    Bool.false_eq_true, if_false, Option.getD_none, Option.getD_some, Option.isSome_none,
    true_and] at hrep ⊢
  have hsup := toNat_le_u64Max inputs.ratePlan.supercycleNs
  by_cases hage : (inputs.ratePlan.releases.getD j {}).releaseTimeNs.toNat >
      u64Max - (inputs.ratePlan.supercycleNs.toNat -
        (inputs.ratePlan.releases.getD w {}).releaseTimeNs.toNat)
  · simp only [checkedAge, Bool.not_true, Bool.false_eq_true, if_false, if_pos hage,
      Option.isSome_none, ne_eq, not_true_eq_false] at hrep
  · simp only [checkedAge, Bool.not_true, Bool.false_eq_true, if_false, if_neg hage,
      Option.isSome_some, if_true, Option.getD_some, true_and]
    exact ⟨toNat_ofNat_of_le (by omega), trivial⟩

theorem selection_consumer (steady : Bool) :
    (inputs.selection channel channelIndex producerBinding consumerBinding j
      steady).consumerReferenceIndex = some j := by
  simp only [selection, makeSelection]
  split <;> rfl

theorem selection_fresh (steady : Bool) :
    (inputs.selection channel channelIndex producerBinding consumerBinding j
      steady).freshness = .fresh ↔
    (inputs.selection channel channelIndex producerBinding consumerBinding j
      steady).ageNs.toNat ≤ channel.maximumAgeNs.toNat :=
  freshnessOf_eq_fresh (toNat_le_u64Max _)

/-- The age of the repeating selection is representable where the cycle before is read. -/
def Representable (inputs : CrossRateInputs) (channel : CrossRateChannelSpec) (channelIndex : ℕ)
    (producerBinding consumerBinding : CompiledRateBinding) (j : ℕ) : Prop :=
  inCycleReference (inputs.referencesOf channel.producer) j = none →
    (inputs.selection channel channelIndex producerBinding consumerBinding j
      true).producerReferenceIndex ≠ none

/-- The selection of the table for cycle `c` is right for the consumer record `(c, j)`. -/
theorem selection_correct (h : IsTimeline inputs.ratePlan) {w c : ℕ}
    (hj : j < inputs.ratePlan.releases.length)
    (hw : (inputs.referencesOf channel.producer).getLast? = some w)
    (hrep : inputs.Representable channel channelIndex producerBinding consumerBinding j) :
    SelectionCorrect inputs.ratePlan channel c j
      (inputs.selection channel channelIndex producerBinding consumerBinding j (c ≠ 0)) := by
  have hsorted := inputs.referencesOf_sorted channel.producer
  have hrecord : ∀ {z : UnrolledRecord}, inputs.ratePlan.IsRecordOf channel.producer z ↔
      z.2 ∈ inputs.referencesOf channel.producer := fun {z} => mem_referencesOf.symm
  cases hp : inCycleReference (inputs.referencesOf channel.producer) j with
  | some p =>
    obtain ⟨hpmem, hpj, hpmax⟩ := inCycleReference_eq_some hsorted hp
    have htime := h.releaseTime_le hpj.le hj
    have hs := selection_of_inCycle channelIndex producerBinding consumerBinding
      (decide (c ≠ 0)) hp htime
    have hlast : inputs.ratePlan.IsLastBefore channel.producer (c, p) (c, j) := by
      refine (h.isLastBefore_iff hj).mpr ⟨hrecord.mpr hpmem, Or.inr ⟨rfl, hpj⟩, fun z hz hzy => ?_⟩
      rcases hzy with hlt | ⟨heq, hlt⟩
      · exact Or.inl hlt
      · exact Or.inr ⟨heq, hpmax z.2 (hrecord.mp hz) hlt⟩
    have hprod : (inputs.selection channel channelIndex producerBinding consumerBinding j
        (decide (c ≠ 0))).provenance ≠ .initialSample := by
      rw [hs.1]
      decide
    refine ⟨selection_consumer _, ?_, fun hi => absurd hi hprod, fun _ => ?_, selection_fresh _⟩
    · exact iff_of_false hprod fun hall => hall (c, p) hlast.record hlast.before
    · refine ⟨(c, p), hlast, hs.2.1, ?_, ?_, hs.2.2.2.2.1, hs.2.2.2.2.2⟩
      · rw [hs.2.2.1, add_zero]
      · simp only [hs.2.2.2.1, unrolledTime]
        omega
  | none =>
    have hnone := inCycleReference_eq_none hsorted hp
    have hcycle : ∀ z, inputs.ratePlan.IsRecordOf channel.producer z →
        (z.1 < c ∨ (z.1 = c ∧ z.2 < j)) → z.1 < c := by
      rintro z hz (hlt | ⟨-, hlt⟩)
      · exact hlt
      · exact absurd hlt (hnone z.2 (hrecord.mp hz))
    by_cases hc : c = 0
    · -- cycle zero: nothing was produced before
      subst hc
      have hs := selection_initial channelIndex producerBinding consumerBinding hp
      refine ⟨selection_consumer _, iff_of_true hs.1 fun z hz hlt => ?_, fun _ => ?_, fun hi => ?_,
        selection_fresh _⟩
      · exact absurd (hcycle z hz ((h.unrolledKey_lt_iff hz.1 hj).mp hlt)) (Nat.not_lt_zero _)
      · refine ⟨rfl, hs.2.1, ?_⟩
        change (inputs.selection channel channelIndex producerBinding consumerBinding j
          false).ageNs.toNat = _
        rw [hs.2.2.2, unrolledTime, Nat.zero_mul, Nat.zero_add]
      · exact absurd (hs.1.symm.trans hi) (by decide)
    · -- a later cycle: the last producer release of the cycle before
      have hs := selection_wrap hp hw (hrep hp)
      obtain ⟨hwmem, hwmax⟩ := le_getLast hsorted hw
      have hwrec : inputs.ratePlan.IsRecordOf channel.producer (c - 1, w) := hrecord.mpr hwmem
      have hwlt : (inputs.ratePlan.release w).releaseTimeNs.toNat <
          inputs.ratePlan.supercycleNs.toNat :=
        h.releaseTime_lt (release_mem hwrec.1)
      have hsteady : decide (c ≠ 0) = true := decide_eq_true hc
      rw [hsteady]
      have hlast : inputs.ratePlan.IsLastBefore channel.producer (c - 1, w) (c, j) := by
        refine (h.isLastBefore_iff hj).mpr ⟨hwrec, Or.inl (by omega), fun z hz hzy => ?_⟩
        have hz1 := hcycle z hz hzy
        have hz2 := hwmax z.2 (hrecord.mp hz)
        change z.1 < c - 1 ∨ (z.1 = c - 1 ∧ z.2 ≤ w)
        omega
      have hprod : (inputs.selection channel channelIndex producerBinding consumerBinding j
          true).provenance ≠ .initialSample := by
        rw [hs.1]
        decide
      refine ⟨selection_consumer _, ?_, fun hi => absurd hi hprod, fun _ => ?_, selection_fresh _⟩
      · exact iff_of_false hprod fun hall => hall _ hlast.record hlast.before
      · refine ⟨(c - 1, w), hlast, hs.2.1, ?_, ?_, hs.2.2.2.2.1, hs.2.2.2.2.2⟩
        · rw [hs.2.2.1]
          change ((c - 1 : ℕ) : ℤ) = c + -1
          omega
        · have hmul : c * inputs.ratePlan.supercycleNs.toNat =
              (c - 1) * inputs.ratePlan.supercycleNs.toNat +
                inputs.ratePlan.supercycleNs.toNat := by
            rw [← Nat.succ_mul]
            congr 1
            omega
          simp only [hs.2.2.2.1, unrolledTime, hmul]
          omega

end Selection

end CrossRateInputs

end RtRuntime
