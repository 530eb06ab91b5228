import RtRuntime.RatePolicy

/-!
# Ranges of omitted releases

A turn of the dispatch loop settles the releases below its barrier in whole ranges, one
rate action and one update of the shedding state for each. This file compares a range with
the releases it stands for: what settling them one by one would have left as shedding state,
and whether the late flag of the range holds for every one of them.

The barrier is found at one reading of the clock, and the late flag of a range is taken at
a later one. `Limits` says what the first has established, `RangeAt` is a range as the loop
omits it.
-/

namespace RtRuntime

open StepContext ActiveSheddingState List Function

variable {ω ε : Type}

/-- The same state at another position of the clock readings. -/
def StepState.atReading (s : StepState ω ε) (reading : ℕ) : StepState ω ε :=
  { s with reads := reading }

namespace StepContext

theorem ceilSequence_le {sequence value period : ℕ} (h : value ≤ sequence * period) :
    ceilSequence value period ≤ sequence := by
  rw [Nat.mul_comm] at h
  unfold ceilSequence
  split
  next hmod =>
    refine Nat.div_lt_of_lt_mul (h.lt_of_ne ?_)
    rintro rfl
    exact hmod (Nat.mul_mod_right _ _)
  · exact Nat.div_le_of_le_mul h

theorem lt_of_lt_ceilSequence {sequence value period : ℕ}
    (h : sequence < ceilSequence value period) : sequence * period < value := by
  by_contra hle
  exact (ceilSequence_le (Nat.le_of_not_lt hle)).not_gt h

variable (ctx : StepContext ω ε)

/-! ## The barrier -/

/-- The absolute deadline of a release. -/
def deadline (index sequence : ℕ) : ℕ :=
  ctx.epochNs + sequence * ctx.plan.period index + (ctx.plan.domain index).relativeDeadlineNs.toNat

/-- The answer to whether the next release of the domain is late, asked at a reading. -/
def probeNow (s : StepState ω ε) (index reading : ℕ) : ℕ :=
  ctx.decisionNow (s.atReading reading) index (s.next index) (ctx.deadline index (s.next index))

def probeLate (s : StepState ω ε) (index reading : ℕ) : Bool :=
  ctx.probeNow s index reading > ctx.deadline index (s.next index)

/-- What the barrier owes to a domain that was probed at a reading: it does not pass the
next release unless that can be omitted, nor the first release that is not late. -/
structure Limits (s : StepState ω ε) (index reading barrier : ℕ) : Prop where
  fits : ctx.deadline index (s.next index) ≤ u64Max
  executable : ctx.omission s index (ctx.probeLate s index reading) = false →
    barrier ≤ s.next index * ctx.plan.period index
  nonlate : ctx.omission s index (ctx.probeLate s index reading) →
    ctx.probeLate s index reading →
    ctx.firstNonlate s index (ctx.probeNow s index reading) < ctx.endSequence index →
    barrier ≤ ctx.firstNonlate s index (ctx.probeNow s index reading) * ctx.plan.period index

variable {ctx}

variable {s : StepState ω ε} {index barrier : ℕ}

theorem Limits.mono {reading lower : ℕ} (h : ctx.Limits s index reading barrier)
    (hle : lower ≤ barrier) :
    ctx.Limits s index reading lower :=
  ⟨h.fits, fun ho => hle.trans (h.executable ho),
    fun ho hlate hfirst => hle.trans (h.nonlate ho hlate hfirst)⟩

theorem nominalTimes_deadline {sequence logical : ℕ} {times : ℕ × ℕ}
    (hlogical : checkedMultiply sequence (ctx.plan.period index) = some logical)
    (h : ctx.nominalTimes index logical = some times) :
    logical = sequence * ctx.plan.period index ∧ times.2 = ctx.deadline index sequence ∧
      ctx.deadline index sequence ≤ u64Max := by
  obtain ⟨hle, rfl⟩ := checkedMultiply_eq_some.mp hlogical
  simp only [nominalTimes, Option.bind_eq_bind, Option.bind_eq_some_iff] at h
  obtain ⟨nominal, hnominal, deadline, hdeadline, htimes⟩ := h
  obtain ⟨_, rfl⟩ := (checkedAdd_eq_some hle).mp hnominal
  obtain ⟨hfits, rfl⟩ := (checkedAdd_eq_some (toNat_le_u64Max _)).mp hdeadline
  cases htimes
  exact ⟨rfl, rfl, hfits⟩

theorem lateBarrier_eq_ok {now deadline lower : ℕ}
    (h : ctx.lateBarrier s index now deadline barrier = .ok lower) :
    lower ≤ barrier ∧ (now > deadline → ctx.firstNonlate s index now < ctx.endSequence index →
      lower ≤ ctx.firstNonlate s index now * ctx.plan.period index) := by
  unfold lateBarrier at h
  split at h
  · obtain ⟨first, hfirst, hlower⟩ := bind_eq_ok.mp h
    obtain ⟨_, rfl⟩ := checkedMultiply_eq_some.mp (orReject_eq_ok.mp hfirst)
    cases hlower
    exact ⟨min_le_left _ _, fun _ _ => min_le_right _ _⟩
  next hnot =>
    cases h
    exact ⟨le_rfl, fun hnow hfirst => absurd ⟨hnow, hfirst⟩ hnot⟩

variable {t : StepState ω ε}

/-- Probing a domain takes one reading and lowers the barrier to what it owes the domain. -/
theorem probeDomain_eq_ok {lower reading : ℕ}
    (h : ctx.probeDomain (barrier, s.atReading reading) index = .ok (lower, t)) :
    lower ≤ barrier ∧ ∃ reading', t = s.atReading reading' ∧ reading ≤ reading' ∧
      (ctx.isDue s index → reading < reading' ∧ ctx.Limits s index reading lower) := by
  simp only [probeDomain] at h
  split at h
  next hdue =>
    obtain ⟨logical, hlogical, h⟩ := bind_eq_ok.mp h
    obtain ⟨times, htimes, h⟩ := bind_eq_ok.mp h
    obtain ⟨rfl, hdeadline, hfits⟩ :=
      nominalTimes_deadline (orReject_eq_ok.mp hlogical) (orReject_eq_ok.mp htimes)
    rw [hdeadline] at h
    split at h
    next homission =>
      obtain ⟨lower', hlower, h⟩ := bind_eq_ok.mp h
      obtain ⟨rfl, rfl⟩ := Prod.mk.inj (Except.ok.inj h)
      obtain ⟨hle, hnonlate⟩ := lateBarrier_eq_ok hlower
      refine ⟨hle, reading + 1, rfl, Nat.le_succ _, fun _ => ⟨Nat.lt_succ_self _, hfits, ?_, ?_⟩⟩
      · exact fun hnot => absurd (homission.symm.trans hnot) (by decide)
      · exact fun _ hlate hfirst => hnonlate (of_decide_eq_true hlate) hfirst
    next hnot =>
      obtain ⟨rfl, rfl⟩ := Prod.mk.inj (Except.ok.inj h)
      refine ⟨min_le_left _ _, reading + 1, rfl, Nat.le_succ _,
        fun _ => ⟨Nat.lt_succ_self _, hfits, fun _ => min_le_right _ _, ?_⟩⟩
      exact fun homission => absurd homission hnot
  next hdue =>
    obtain ⟨rfl, rfl⟩ := Prod.mk.inj (Except.ok.inj h)
    exact ⟨le_rfl, reading, rfl, le_rfl, fun hdue' => absurd hdue' hdue⟩

/-- The barrier owes something to every domain that is due. -/
theorem probeDomains_eq_ok
    (h : ctx.indices.foldlM ctx.probeDomain (ctx.endNs, s) = .ok (barrier, t)) :
    ∃ reads, t = s.atReading reads ∧ s.reads ≤ reads ∧
      ∀ index ∈ ctx.indices, ctx.isDue s index →
        ∃ reading < reads, ctx.Limits s index reading barrier := by
  refine foldlM_invariant (P := fun done acc => ∃ reads, acc.2 = s.atReading reads ∧
    s.reads ≤ reads ∧ ∀ index ∈ done, ctx.isDue s index →
      ∃ reading < reads, ctx.Limits s index reading acc.1) h
    ⟨s.reads, rfl, le_rfl, forall_mem_nil _⟩ ?_
  rintro done index rest ⟨upper, t⟩ ⟨lower, t'⟩ - ⟨reads, rfl, hreads, hdone⟩ hprobe
  obtain ⟨hle, reads', rfl, hreads', hlimits⟩ := probeDomain_eq_ok hprobe
  refine ⟨reads', rfl, hreads.trans hreads',
    forall_mem_concat.mpr ⟨fun other hmem hdue => ?_, fun hdue => ?_⟩⟩
  · obtain ⟨reading, hreading, hlim⟩ := hdone other hmem hdue
    exact ⟨reading, hreading.trans_le hreads', hlim.mono hle⟩
  · obtain ⟨hlt, hlim⟩ := hlimits hdue
    exact ⟨reads, hlt, hlim⟩

/-! ## Ranges -/

/-- The record of an omitted range. -/
def rangeRecord (ctx : StepContext ω ε) (s : StepState ω ε) (index target records logical
    nominal : ℕ) : RateActionRecord where
  frameIndex := ctx.frameIndex
  firstSequence := s.next index
  logicalReleaseNs := logical
  nominalReleaseNs := nominal
  releaseCount := target - s.next index
  referenceRecordCount := records
  domainIndex := index
  action := ctx.omissionAction s index
  transition := s.currentPolicyState (omissionReason (ctx.omissionAction s index))
  reason := omissionReason (ctx.omissionAction s index)
  optional := (ctx.plan.domain index).optional
  late := ctx.rangeLate s index nominal
  status := .ok
  degradationLevel := s.degradationLevel

/-- The state after an omitted range, as far as later ranges and the claims about it see. -/
structure Omitted (ctx : StepContext ω ε) (s t : StepState ω ε) (index target records
    nominal : ℕ) : Prop where
  next : t.next = update s.next index target
  shedding : t.shedding = ctx.streakAfterRange s.shedding index
  replay : s.replay = none → t.replay = none
  reads : t.reads = ctx.rangeReads s index nominal
  rateLog : t.rateLog = s.rateLog ++
    [ctx.rangeRecord s index target records (s.next index * ctx.plan.period index) nominal]

theorem streakAfterRange_mask (ctx : StepContext ω ε) (shedding : Option ActiveSheddingState)
    (index : ℕ) : (ctx.streakAfterRange shedding index).map shedMask =
      shedding.map shedMask := by
  unfold streakAfterRange
  split
  · rfl
  · rw [Option.map_map]
    rfl

theorem alreadyShed_congr (h : t.shedding.map shedMask =
      s.shedding.map shedMask) (plan : ActivePlan) (index : ℕ) :
    t.alreadyShed plan index = s.alreadyShed plan index := by
  have hany : ∀ u : StepState ω ε, u.alreadyShed plan index = ((plan.domain index).optional &&
      (u.shedding.map shedMask).any
        fun mask => mask &&& ActivePlan.shedBit index ≠ 0) := by
    intro u
    unfold StepState.alreadyShed
    cases u.shedding <;> rfl
  rw [hany, hany, h]

theorem streakAfterRange_bounded {shedding : Option ActiveSheddingState}
    (h : ctx.plan.StreakBounded shedding) (index : ℕ) :
    ctx.plan.StreakBounded (ctx.streakAfterRange shedding index) := by
  unfold streakAfterRange
  split
  · exact h
  · intro state hstate
    obtain ⟨old, -, rfl⟩ := Option.mem_map.mp hstate
    exact UInt32.le_refl _

variable {E : RateActionRecord → Prop}

theorem Omitted.continues {target records nominal : ℕ}
    (h : ctx.Omitted s t index target records nominal) (hlt : s.next index < target)
    (hend : target ≤ ctx.endSequence index)
    (hE : E (ctx.rangeRecord s index target records (s.next index * ctx.plan.period index)
      nominal)) : Continues ctx E s t := by
  refine ⟨fun other => ?_, fun other => ?_, fun hs => ?_, h.replay, _, h.rateLog, ?_⟩
  · rw [h.next]
    by_cases hother : other = index
    · rw [hother, update_self]
      exact hlt.le
    · rw [update_of_ne hother]
  · rw [h.next]
    by_cases hother : other = index
    · rw [hother, update_self]
      exact le_max_of_le_right hend
    · rw [update_of_ne hother]
      exact le_max_left _ _
  · rw [h.shedding]
    exact streakAfterRange_bounded hs index
  · intro record hrecord
    obtain rfl := mem_singleton.mp hrecord
    exact hE

variable [DecidableEq ε]

/-- Either the domain has no range below the barrier, or the whole range is omitted. -/
theorem omitRange_cases (ctx : StepContext ω ε) (barrier : ℕ) (s : StepState ω ε) (index : ℕ) :
    ctx.omitRange barrier s index = .ok s ∨
    (∃ status, ctx.omitRange barrier s index = .error (status, s)) ∨
    ∃ t records nominal, ctx.omitRange barrier s index = .ok t ∧
      s.next index < ctx.rangeTarget barrier index ∧
      nominal = ctx.epochNs + s.next index * ctx.plan.period index ∧
      ctx.Omitted s t index (ctx.rangeTarget barrier index) records nominal := by
  simp only [omitRange]
  split
  next hrange =>
    right
    cases hrecords : checkedMultiply (ctx.rangeTarget barrier index - s.next index)
        (ctx.plan.records index) with
    | none => exact .inl ⟨.capacityExceeded, rfl⟩
    | some records =>
      cases hlogical : checkedMultiply (s.next index) (ctx.plan.period index) with
      | none => exact .inl ⟨.capacityExceeded, rfl⟩
      | some logical =>
        obtain ⟨hle, rfl⟩ := checkedMultiply_eq_some.mp hlogical
        cases hnominal : checkedAdd ctx.epochNs (s.next index * ctx.plan.period index) with
        | none =>
          exact .inl ⟨.capacityExceeded, by simp [orStop, orReject, hnominal, bind, Except.bind]⟩
        | some nominal =>
          refine .inr ⟨ctx.omitReleases s index (ctx.rangeTarget barrier index) records
            (s.next index * ctx.plan.period index) nominal, records, nominal, ?_, hrange.2,
            ((checkedAdd_eq_some hle).mp hnominal).2, rfl, rfl, fun hnone => ?_, rfl, rfl⟩
          · simp [orStop, orReject, hnominal, bind, Except.bind, pure, Except.pure]
          · simp [omitReleases, emitRateAction, StepState.emitMixed, hnone]
  · exact .inl rfl

theorem omitRange_eq_ok (h : ctx.omitRange barrier s index = .ok t) :
    t = s ∨ s.next index < ctx.rangeTarget barrier index ∧
      ∃ records, ctx.Omitted s t index (ctx.rangeTarget barrier index) records
        (ctx.epochNs + s.next index * ctx.plan.period index) := by
  rcases omitRange_cases ctx barrier s index with hsame | ⟨status, herror⟩ |
      ⟨u, records, nominal, hu, hlt, rfl, homitted⟩
  · exact .inl (Except.ok.inj (h.symm.trans hsame))
  · cases herror.symm.trans h
  · obtain rfl := Except.ok.inj (hu.symm.trans h)
    exact .inr ⟨hlt, records, homitted⟩

/-- What the ranges of earlier domains leave as the probe has seen it: the releases of the
other domains and the shed mask. -/
structure Pending (s t : StepState ω ε) (done : List ℕ) : Prop where
  next : ∀ index ∉ done, t.next index = s.next index
  mask : t.shedding.map shedMask = s.shedding.map shedMask
  reads : s.reads ≤ t.reads
  replay : s.replay = none → t.replay = none

theorem omitRanges_pending {done : List ℕ}
    (h : done.foldlM (ctx.omitRange barrier) s = .ok t) : Pending s t done := by
  refine foldlM_invariant (P := fun done t => Pending s t done) h
    ⟨fun _ _ => rfl, rfl, le_rfl, id⟩ ?_
  intro done index rest t t' _ hpending hrange
  rcases omitRange_eq_ok hrange with rfl | ⟨-, records, homitted⟩
  · exact ⟨fun other hother => hpending.next other fun hmem => hother (by simp [hmem]),
      hpending.mask, hpending.reads, hpending.replay⟩
  · refine ⟨fun other hother => ?_, ?_, ?_, fun hnone => homitted.replay (hpending.replay hnone)⟩
    · rw [mem_append, mem_singleton, not_or] at hother
      rw [homitted.next, update_of_ne hother.2]
      exact hpending.next other hother.1
    · rw [homitted.shedding, streakAfterRange_mask]
      exact hpending.mask
    · rw [homitted.reads, rangeReads]
      exact hpending.reads.trans (Nat.le_add_right _ _)

/-- A turn that starts in `s` omits a range of a domain: `before` and `after` are the states
around it. -/
structure RangeAt (ctx : StepContext ω ε) (s : StepState ω ε) (index : ℕ)
    (before after : StepState ω ε) : Prop where
  turn : ∃ barrier probed earlier later,
    ctx.indices.foldlM ctx.probeDomain (ctx.endNs, s) = .ok (barrier, probed) ∧
    ctx.indices = earlier ++ index :: later ∧
    earlier.foldlM (ctx.omitRange barrier) probed = .ok before ∧
    ctx.omitRange barrier before index = .ok after
  advanced : before.next index < after.next index

/-- What is known of a range: it was probed at a reading that allowed to omit the next
release, and if that one was late then so is every release of the range. -/
structure RangeKnown (ctx : StepContext ω ε) (s before after : StepState ω ε)
    (index reading target records : ℕ) : Prop where
  next : before.next index = s.next index
  mask : before.shedding.map shedMask = s.shedding.map shedMask
  reads : reading < before.reads
  replay : s.replay = none → before.replay = none
  due : s.next index < target
  fits : ctx.deadline index (s.next index) ≤ u64Max
  end_le : target ≤ ctx.endSequence index
  omission : ctx.omission s index (ctx.probeLate s index reading)
  late : ctx.probeLate s index reading → ∀ sequence, s.next index ≤ sequence → sequence < target →
    ctx.deadline index sequence < ctx.probeNow s index reading
  omitted : ctx.Omitted before after index target records
    (ctx.epochNs + s.next index * ctx.plan.period index)

theorem RangeAt.known {before after : StepState ω ε} (h : ctx.RangeAt s index before after) :
    ∃ reading target records, ctx.RangeKnown s before after index reading target records := by
  obtain ⟨⟨barrier, probed, earlier, later, hprobe, horder, hearlier, hrange⟩, hadvanced⟩ := h
  obtain ⟨reads, rfl, -, hlimits⟩ := probeDomains_eq_ok hprobe
  have hnodup : ctx.indices.Nodup := nodup_range
  have hindex : index ∉ earlier := by
    rw [horder, nodup_append] at hnodup
    exact fun hmem => hnodup.2.2 index hmem index mem_cons_self rfl
  have hpending := omitRanges_pending hearlier
  have hnext : before.next index = s.next index := hpending.next index hindex
  rcases omitRange_eq_ok hrange with rfl | ⟨hdue, records, homitted⟩
  · exact absurd hadvanced (lt_irrefl _)
  rw [hnext] at hdue homitted
  have hend : ctx.rangeTarget barrier index ≤ ctx.endSequence index := min_le_left _ _
  have hceil : ctx.rangeTarget barrier index ≤ ceilSequence barrier (ctx.plan.period index) :=
    min_le_right _ _
  obtain ⟨reading, hreading, hlimit⟩ := hlimits index (by rw [horder]; simp)
    (decide_eq_true (hdue.trans_le hend))
  -- A barrier at or before the next release would leave no range.
  have homission : ctx.omission s index (ctx.probeLate s index reading) = true := by
    by_contra hnot
    have hle := ceilSequence_le (hlimit.executable (eq_false_of_ne_true hnot))
    omega
  refine ⟨reading, ctx.rangeTarget barrier index, records, hnext, hpending.mask,
    hreading.trans_le hpending.reads, hpending.replay, hdue, hlimit.fits, hend, homission, ?_,
    homitted⟩
  intro hlate sequence hfirst hlast
  have hbelow : sequence < ctx.firstNonlate s index (ctx.probeNow s index reading) := by
    by_cases hwithin : ctx.firstNonlate s index (ctx.probeNow s index reading) <
        ctx.endSequence index
    · have := ceilSequence_le (hlimit.nonlate homission hlate hwithin)
      omega
    · omega
  have hceiling := (lt_max_iff.mp hbelow).resolve_left (by omega)
  have := lt_of_lt_ceilSequence hceiling
  unfold deadline
  omega

/-! ## Turns and steps -/

section

variable (hrange : ∀ index before after record, ctx.RangeAt s index before after →
  after.rateLog = before.rateLog ++ [record] → E record)
include hrange

/-- The ranges of a turn; `E` is shown for the record of each. -/
theorem omitRanges_continues {probed : StepState ω ε} {barrier : ℕ}
    (hprobe : ctx.indices.foldlM ctx.probeDomain (ctx.endNs, s) = .ok (barrier, probed))
    (hprobed : Continues ctx E s probed) :
    Continues.Of ctx E s (ctx.indices.foldlM (ctx.omitRange barrier) probed) id := by
  refine (Ensures.foldlM (I := fun done t => done.foldlM (ctx.omitRange barrier) probed = .ok t ∧
    Continues ctx E s t) ⟨rfl, hprobed⟩ ?_).mono (fun _ h => h.2) fun _ h => h
  rintro done index rest t horder ⟨hdone, ht⟩
  have hstep : ∀ {t'}, ctx.omitRange barrier t index = .ok t' →
      (done ++ [index]).foldlM (ctx.omitRange barrier) probed = .ok t' := by
    intro t' ht'
    rw [foldlM_append, hdone]
    simp [bind, Except.bind, ht', pure, Except.pure]
  rcases omitRange_cases ctx barrier t index with hsame | ⟨status, herror⟩ |
      ⟨u, records, nominal, hu, hlt, -, homitted⟩
  · rw [hsame]
    exact ⟨hstep hsame, ht⟩
  · rw [herror]
    exact ht
  · rw [hu]
    have hadvanced : t.next index < u.next index := by
      rw [homitted.next, update_self]
      exact hlt
    refine ⟨hstep hu, ht.trans (homitted.continues hlt (min_le_left _ _) ?_)⟩
    exact hrange index t u _ ⟨⟨barrier, probed, done, rest, hprobe, horder, hdone, hu⟩, hadvanced⟩
      homitted.rateLog

/-- One turn of the loop. -/
theorem dispatchTurn_continues
    (hsingle : ∀ record : RateActionRecord, record.releaseCount = 1 → E record) :
    Continues.Of ctx E s (ctx.dispatchTurn s) Prod.fst :=
  dispatchTurn_ensures (fun _ h => h) (fun h => h.trans (.of_aside ⟨rfl, rfl, rfl, id⟩))
    (.refl s) (fun _ _ => omitRanges_continues hrange) fun _ ht instant index =>
      Continues.Of.after ht (Continues.settleAt hsingle instant index)

end

/-- The states in which the loop starts a turn. -/
inductive TurnReached (ctx : StepContext ω ε) (first : StepState ω ε) : StepState ω ε → Prop
  | first : TurnReached ctx first first
  | next {s t : StepState ω ε} : TurnReached ctx first s → ctx.dispatchTurn s = .ok (t, true) →
      TurnReached ctx first t

theorem TurnReached.continues {first : StepState ω ε}
    (h : ctx.TurnReached first s) : Continues ctx (fun _ => True) first s := by
  induction h with
  | first => exact .refl _
  | next _ hturn ih =>
    exact ih.trans ((dispatchTurn_continues (fun _ _ _ _ _ _ => trivial) fun _ _ => trivial).of_ok
      hturn)

/-- The loop from a turn on. -/
theorem dispatchLoop_continues {first : StepState ω ε}
    (hsingle : ∀ record : RateActionRecord, record.releaseCount = 1 → E record)
    (hrange : ∀ s index before after record, ctx.TurnReached first s →
      ctx.RangeAt s index before after → after.rateLog = before.rateLog ++ [record] → E record)
    (fuel : ℕ) : ∀ {s : StepState ω ε}, ctx.TurnReached first s → Continues ctx E first s →
      Continues.Of ctx E first (ctx.dispatchLoop fuel s) id := by
  induction fuel with
  | zero => exact fun _ hs => hs
  | succ fuel ih =>
    intro s hreached hs
    have hturn := Continues.Of.after hs (dispatchTurn_continues
      (fun index before after record => hrange s index before after record hreached) hsingle)
    simp only [dispatchLoop]
    split
    next stop heq => exact hturn.of_error heq
    next t heq => exact ih (hreached.next heq) (hturn.of_ok heq)
    next t heq => exact hturn.of_ok heq

end StepContext

/-- During a step from `state` the loop omits a range of a domain. -/
def RangeOmitted [DecidableEq ε] (plan : ActivePlan) (state : ActiveState ω ε)
    (input : StepInput ω ε) (ctx : StepContext ω ε) (index : ℕ) (before after : StepState ω ε) :
    Prop :=
  ∃ first s, beginStep plan input.machine input.readings input.frame state = .ok (ctx, first) ∧
    ctx.TurnReached first s ∧ ctx.RangeAt s index before after

theorem finishStep_policy (ctx : StepContext ω ε) (status : Status) (s : StepState ω ε) :
    (finishStep ctx status s).shedding = s.shedding ∧
      (finishStep ctx status s).rateLog = s.rateLog := by
  simp only [finishStep]
  split
  · exact ⟨rfl, rfl⟩
  · split <;> exact ⟨rfl, rfl⟩

theorem StepContext.deadline_mono (ctx : StepContext ω ε) (index : ℕ) :
    Monotone (ctx.deadline index) := by
  intro first second hle
  have := Nat.mul_le_mul_right (ctx.plan.period index) hle
  unfold deadline
  omega

theorem shedMask_eq_of_map {s t : StepState ω ε}
    (h : t.shedding.map shedMask =
      s.shedding.map shedMask) : t.shedMask = s.shedMask := by
  have hmask : ∀ u : StepState ω ε, u.shedMask =
      (u.shedding.map shedMask).getD 0 := by
    intro u
    unfold StepState.shedMask
    cases u.shedding <;> rfl
  rw [hmask, hmask, h]

namespace StepContext.RangeKnown

variable {ctx : StepContext ω ε} {s before after : StepState ω ε}
  {index reading target records : ℕ}

/-- The flag of the record is taken at the next reading. -/
theorem rangeLate_eq (h : ctx.RangeKnown s before after index reading target records)
    (hreplay : s.replay = none) :
    ctx.rangeLate before index (ctx.epochNs + s.next index * ctx.plan.period index) =
        decide (ctx.deadline index (s.next index) < ctx.readings before.reads) ∧
      after.reads = before.reads + 1 := by
  have hfits := h.fits
  have hrelative : (ctx.plan.domain index).relativeDeadlineNs.toNat ≤ u64Max := by
    unfold deadline at hfits
    omega
  have hadd : checkedAdd (ctx.epochNs + s.next index * ctx.plan.period index)
      (ctx.plan.domain index).relativeDeadlineNs.toNat = some (ctx.deadline index (s.next index)) :=
    (checkedAdd_eq_some hrelative).mpr ⟨hfits, rfl⟩
  refine ⟨?_, ?_⟩
  · simp only [rangeLate, hadd, decidesLate, decisionNow, h.replay hreplay, gt_iff_lt]
  · rw [h.omitted.reads, rangeReads, hadd]
    rfl

theorem probeNow_eq (hreplay : s.replay = none) :
    ctx.probeNow s index reading = ctx.readings reading := by
  simp only [probeNow, decisionNow, StepState.atReading, hreplay]

end StepContext.RangeKnown

variable [DecidableEq ε]

/-- A rate action of a step: about one release, or about a range that the step omits. -/
def StepEmits (plan : ActivePlan) (state : ActiveState ω ε) (input : StepInput ω ε)
    (record : RateActionRecord) : Prop :=
  record.releaseCount = 1 ∨ ∃ ctx index before after,
    RangeOmitted plan state input ctx index before after ∧
    after.rateLog = before.rateLog ++ [record]

/-- A step keeps the late streak within its threshold and emits actions about one release or
about one range. -/
theorem step_continues (plan : ActivePlan) (state : ActiveState ω ε) (input : StepInput ω ε) :
    (plan.StreakBounded state.shedding →
      plan.StreakBounded (plan.step state input).state.shedding) ∧
    ∃ emitted, (plan.step state input).state.rateLog = state.rateLog ++ emitted ∧
      ∀ record ∈ emitted, StepEmits plan state input record := by
  cases hbegin : beginStep plan input.machine input.readings input.frame state with
  | error status =>
    simp only [ActivePlan.step, runActiveStep, hbegin]
    exact ⟨id, [], (append_nil _).symm, forall_mem_nil _⟩
  | ok begun =>
    obtain ⟨ctx, first⟩ := begun
    have hbegun := beginStep_eq_ok hbegin
    have hloop : Continues.Of ctx (StepEmits plan state input) first
        (ctx.dispatchLoop (first.summary.dueDomainReleases + 1) first) id :=
      dispatchLoop_continues (fun _ => .inl)
        (fun s index before after record hturn hrange hrecord =>
          .inr ⟨ctx, index, before, after, ⟨first, s, hbegin, hturn, hrange⟩, hrecord⟩)
        _ .first (.refl first)
    -- The state after the loop has the shedding state and the log of the step's state.
    have hfinish : ∀ status t, Continues ctx (StepEmits plan state input) first t →
        (plan.StreakBounded state.shedding →
          plan.StreakBounded (finishStep ctx status t).shedding) ∧
        ∃ emitted, (finishStep ctx status t).rateLog = state.rateLog ++ emitted ∧
          ∀ record ∈ emitted, StepEmits plan state input record := by
      intro status t ht
      obtain ⟨hshedding, hlog⟩ := finishStep_policy ctx status t
      have hstreak := ht.streak
      have hemitted := ht.log
      rw [hbegun.plan_eq, hbegun.state_eq] at hstreak
      rw [hbegun.state_eq] at hemitted
      rw [hshedding, hlog]
      exact ⟨hstreak, hemitted⟩
    simp only [ActivePlan.step, runActiveStep, hbegin]
    cases hrun : ctx.dispatchLoop (first.summary.dueDomainReleases + 1) first with
    | ok t => exact hfinish .ok t (hloop.of_ok hrun)
    | error stop => exact hfinish stop.1 stop.2 (hloop.of_error hrun)

variable {plan : ActivePlan}

theorem run_streakBounded (inputs : List (StepInput ω ε)) :
    ∀ {state : ActiveState ω ε}, plan.StreakBounded state.shedding →
      plan.StreakBounded (plan.run state inputs).shedding := by
  induction inputs with
  | nil => exact fun h => h
  | cons input inputs ih => exact fun h => ih ((step_continues plan _ input).1 h)

variable {ctx : StepContext ω ε} {state : ActiveState ω ε} {input : StepInput ω ε}

theorem RangeOmitted.streakBounded {index : ℕ} {before after : StepState ω ε}
    (h : RangeOmitted plan state input ctx index before after)
    (hstate : plan.StreakBounded state.shedding) : plan.StreakBounded before.shedding := by
  obtain ⟨first, s, hbegin, hturn, hrange⟩ := h
  obtain ⟨⟨barrier, probed, earlier, later, hprobe, horder, hearlier, -⟩, -⟩ := hrange
  have hbegun := beginStep_eq_ok hbegin
  have hs := hturn.continues.streak
  rw [hbegun.plan_eq, hbegun.state_eq] at hs
  obtain ⟨reads, rfl, -, -⟩ := probeDomains_eq_ok hprobe
  refine foldlM_invariant (P := fun _ t => plan.StreakBounded t.shedding) hearlier (hs hstate) ?_
  intro done other rest t t' _ ht homit
  rcases omitRange_eq_ok homit with rfl | ⟨-, records, homitted⟩
  · exact ht
  · rw [homitted.shedding]
    rw [← hbegun.plan_eq] at ht ⊢
    exact streakAfterRange_bounded ht other

/-! ## The streak after a range -/

/-- A mandatory domain only has a range when every optional domain is shed. -/
theorem RangeOmitted.allShed {index : ℕ} {before after : StepState ω ε}
    (h : RangeOmitted plan state input ctx index before after)
    (hmandatory : (plan.domain index).optional = false) :
    ∀ shedding ∈ before.shedding, plan.AllShed shedding.shedMask := by
  obtain ⟨first, s, hbegin, -, hrange⟩ := h
  obtain ⟨reading, target, records, hknown⟩ := hrange.known
  have hplan := (beginStep_eq_ok hbegin).plan_eq
  have homission := hknown.omission
  simp only [omission, StepState.alreadyShed, hplan, hmandatory, Bool.false_and,
    Bool.false_or, Bool.and_eq_true, aggregateMandatory, Bool.or_eq_true] at homission
  intro shedding hshedding
  rcases homission.2 with hempty | hmask
  · intro other hother
    rw [isEmpty_iff.mp hempty] at hother
    cases hother
  · cases hs : s.shedding with
    | none => simp [hs] at hmask
    | some old =>
      have hsame := hknown.mask
      rw [hs, Option.mem_def.mp hshedding] at hsame
      rw [Option.some.inj hsame]
      simp only [hs, Option.any_some, decide_eq_true_eq] at hmask
      exact allShed_of_mask hmask

/-! ## Ranges of a run

`omittedRange` finds a range by running the model, for the plans below. -/

namespace StepContext

/-- The state in which a later turn of the loop starts. -/
def afterTurns (ctx : StepContext ω ε) : ℕ → StepState ω ε → Option (StepState ω ε)
  | 0, s => some s
  | turns + 1, s => do
    let t ← ctx.afterTurns turns s
    match ctx.dispatchTurn t with
    | .ok (u, true) => some u
    | _ => none

theorem afterTurns_reached {s : StepState ω ε} (turns : ℕ) :
    ∀ {t}, ctx.afterTurns turns s = some t → ctx.TurnReached s t := by
  induction turns with
  | zero => exact fun h => Option.some.inj h ▸ .first
  | succ turns ih =>
    intro t h
    obtain ⟨u, hu, h⟩ := Option.bind_eq_some_iff.mp h
    split at h
    next v hturn =>
      cases h
      exact (ih hu).next hturn
    · cases h

/-- The states around the range of a domain in the turn that starts in `s`. -/
def rangeIn (ctx : StepContext ω ε) (s : StepState ω ε) (index : ℕ) :
    Option (StepState ω ε × StepState ω ε) := do
  let (barrier, probed) ← (ctx.indices.foldlM ctx.probeDomain (ctx.endNs, s)).toOption
  let before ← ((List.range index).foldlM (ctx.omitRange barrier) probed).toOption
  let after ← (ctx.omitRange barrier before index).toOption
  guard (before.next index < after.next index)
  return (before, after)

theorem rangeIn_rangeAt {s before after : StepState ω ε} {index : ℕ}
    (hindex : index < ctx.plan.domainCount) (h : ctx.rangeIn s index = some (before, after)) :
    ctx.RangeAt s index before after := by
  simp only [rangeIn, Option.bind_eq_bind, Option.bind_eq_some_iff] at h
  obtain ⟨⟨barrier, probed⟩, hprobe, before', hbefore, after', hafter, _, hadvanced, h⟩ := h
  obtain ⟨rfl, rfl⟩ := Prod.mk.inj (Option.some.inj h)
  have hadvanced : before'.next index < after'.next index := by
    by_contra hnot
    simp [guard, hnot] at hadvanced
  have horder : ctx.indices = List.range index ++
      index :: range' (index + 1) (ctx.plan.domainCount - (index + 1)) := by
    have hsplit := range'_append_1 (s := 0) (m := index) (n := ctx.plan.domainCount - index)
    rw [Nat.zero_add, Nat.add_sub_cancel' hindex.le, ← range_eq_range',
      ← range_eq_range', ← Nat.succ_pred_eq_of_pos (Nat.sub_pos_of_lt hindex),
      range'_succ] at hsplit
    exact hsplit.symm
  exact ⟨⟨barrier, probed, _, _, eq_ok_of_toOption hprobe, horder,
    eq_ok_of_toOption hbefore, eq_ok_of_toOption hafter⟩,
    hadvanced⟩

end StepContext

/-- The range of a domain in a turn of a step, with the context of the step. -/
def omittedRange (plan : ActivePlan) (state : ActiveState ω ε) (input : StepInput ω ε)
    (turns index : ℕ) : Option (StepContext ω ε × StepState ω ε × StepState ω ε) := do
  let (ctx, first) ← (beginStep plan input.machine input.readings input.frame state).toOption
  let s ← ctx.afterTurns turns first
  let range ← ctx.rangeIn s index
  return (ctx, range)

theorem omittedRange_rangeOmitted {turns index : ℕ} {before after : StepState ω ε}
    (hindex : index < plan.domainCount)
    (h : omittedRange plan state input turns index = some (ctx, before, after)) :
    RangeOmitted plan state input ctx index before after := by
  simp only [omittedRange, Option.bind_eq_bind, Option.bind_eq_some_iff] at h
  obtain ⟨⟨ctx', first⟩, hbegin, s, hturns, range, hrange, h⟩ := h
  obtain ⟨rfl, rfl⟩ := Prod.mk.inj (Option.some.inj h)
  have hbegin := eq_ok_of_toOption hbegin
  refine ⟨first, s, hbegin, afterTurns_reached turns hturns, ?_⟩
  refine rangeIn_rangeAt ?_ hrange
  rw [(beginStep_eq_ok hbegin).plan_eq]
  exact hindex

def sheddingTimeline : CompiledRatePlan :=
  (compileRateTimeline 7 2 [PhaseHandle.make 7 0, PhaseHandle.make 7 1]
    [{ name := ['a'], periodNs := 40, substepCount := 1, relativeDeadlineNs := 40,
       budgetWcetNs := 1, lateAction := .skip },
      { name := ['b'], periodNs := 10, substepCount := 1, relativeDeadlineNs := 10,
        budgetWcetNs := 1, optional := true, lateAction := .skip }]
    [{ phase := PhaseHandle.make 7 0, domain := RateDomainHandle.make 7 0 },
      { phase := PhaseHandle.make 7 1, domain := RateDomainHandle.make 7 1 }] {}).output

def sheddingDispatch : DispatchInputs where
  graphOwner := 7
  determinismTier := .unspecified
  policy := {
    maximumDispatchRecordsPerStep := 8
    consecutiveLateThreshold := 2
    consecutiveOnTimeThreshold := 2 }
  dependencies := []
  ratePlan := sheddingTimeline
  channels := []
  deviceRatePlan := none

/-- A mandatory domain of period 40 and an optional one of period 10, both skipped when late;
two late releases shed the optional domain. -/
def sheddingPlan : ActivePlan where
  ratePlan := sheddingTimeline
  dispatch := (compileRateDispatch sheddingDispatch {}).output

theorem sheddingPlan_finalized : sheddingPlan.Finalized where
  timeline := ⟨_, _, _, _, _, _, cons_ne_nil _ _, by decide +kernel, rfl⟩
  dispatch := ⟨sheddingDispatch, {}, rfl, rfl, by decide +kernel, rfl⟩

/-- Callbacks that succeed. -/
def sheddingMachine : ActiveMachine Unit Unit where
  waitRateBatch _ _ := (.terminal .ok 0 0, ())
  captureDeviceOutputs _ _ _ := ((.ok, []), ())
  releaseRateBatch _ _ := (.ok, ())
  describeBatch _ _ := ()
  publishBatch _ _ := []
  generationsExhausted _ _ := false
  closeRateRelease _ _ _ := ()
  prepareDeviceInputs _ _ := { value := .ok, world := () }
  runSelected _ _ := { value := {}, world := () }
  substituteSafe _ _ := { value := false, world := () }
  publishChannel _ _ _ := { value := true, world := () }
  expireRateReleasesBefore _ _ := ()

def sheddingStep (nominal : UInt64) (delta : Int64) (readings : ℕ → ℕ) : StepInput Unit Unit where
  frame := { delta := delta, nominalReleaseNs := some nominal }
  readings := readings
  machine := sheddingMachine

/-- From a shedding state as `finalize`, `restore` or any steps leave it: a range of a
mandatory domain leaves the shedding state that observing its releases one by one leaves if
and only if it is long enough to fill the late streak. -/
theorem aggregated_omission_observed (plan : ActivePlan) (start : ActiveState ω ε)
    (hstart : plan.StreakBounded start.shedding) (inputs : List (StepInput ω ε))
    (input : StepInput ω ε) {ctx : StepContext ω ε} {index : ℕ} {before after : StepState ω ε}
    (hrange : RangeOmitted plan (plan.run start inputs) input ctx index before after)
    (hmandatory : (plan.domain index).optional = false) :
    after.shedding = ((fun s => s.observe plan index true)^[after.next index -
        before.next index] before).shedding ↔
      ∀ shedding ∈ before.shedding, plan.dispatch.policy.consecutiveLateThreshold.toNat ≤
        shedding.consecutiveLate.toNat + (after.next index - before.next index) := by
  have hbounded := hrange.streakBounded (run_streakBounded inputs hstart)
  have hall := hrange.allShed hmandatory
  obtain ⟨first, s, hbegin, -, hat⟩ := hrange
  obtain ⟨reading, target, records, hknown⟩ := hat.known
  have hplan := (beginStep_eq_ok hbegin).plan_eq
  obtain ⟨n, hn⟩ : ∃ n, after.next index - before.next index = n + 1 :=
    Nat.exists_eq_add_one.mpr (Nat.sub_pos_of_lt hat.advanced)
  rw [hn, observe_iterate_shedding hmandatory, hknown.omitted.shedding, streakAfterRange,
    hplan, if_neg (by simp [hmandatory])]
  cases hshedding : before.shedding with
  | none => simp
  | some shedding =>
    have hbound := plan.dispatch.policy.consecutiveLateThreshold.toNat_lt
    rw [Option.map_some, Option.map_some, observeLate_iterate n (hall shedding hshedding)
      (hbounded shedding hshedding)]
    simp only [Option.some.injEq, ActiveSheddingState.mk.injEq, true_and, and_true, Option.mem_def,
      forall_eq']
    rw [← UInt32.toNat_inj, UInt32.toNat_ofNat_of_lt' ((min_le_left _ _).trans_lt hbound)]
    omega

/-- Four late releases: two of them shed the optional domain, the other two are one range
that fills the late streak. -/
theorem aggregated_omission_observed_pair :
    ∃ ctx before after, RangeOmitted sheddingPlan (sheddingPlan.run (sheddingPlan.initialState ()) [])
        (sheddingStep 0 160 fun _ => 1000) ctx 0 before after ∧
      before.shedding = some { shedMask := 2 } ∧
      after.next 0 - before.next 0 = 2 ∧
      after.shedding = ((fun s => s.observe sheddingPlan 0 true)^[after.next 0 -
        before.next 0] before).shedding := by
  obtain ⟨⟨ctx, before, after⟩, hrange, hvalues⟩ := Option.map_eq_some_iff.mp (by decide +kernel :
    (omittedRange sheddingPlan (sheddingPlan.run (sheddingPlan.initialState ()) [])
      (sheddingStep 0 160 fun _ => 1000) 2 0).map (fun range =>
        (range.2.1.shedding, range.2.2.next 0 - range.2.1.next 0)) = some (some { shedMask := 2 }, 2))
  obtain ⟨hshedding, hcount⟩ := Prod.mk.inj hvalues
  have homitted := omittedRange_rangeOmitted (by decide +kernel) hrange
  refine ⟨ctx, before, after, homitted, hshedding, hcount, (aggregated_omission_observed sheddingPlan
    (sheddingPlan.initialState ()) ?_ [] _ homitted (by decide +kernel)).mpr ?_⟩
  · intro shedding hinitial
    cases hinitial
    exact UInt32.zero_le
  · intro shedding hbefore
    obtain rfl := Option.some.inj (hshedding.symm.trans hbefore)
    rw [hcount]
    decide +kernel

/-- Three late releases: the third is a range of its own and sets the late streak to the
threshold 2, where observing it counts to 1. -/
theorem aggregated_omission_ahead :
    sheddingPlan.Finalized ∧ (sheddingPlan.domain 0).optional = false ∧
    ∃ ctx before after, RangeOmitted sheddingPlan (sheddingPlan.run (sheddingPlan.initialState ()) [])
        (sheddingStep 0 120 fun _ => 1000) ctx 0 before after ∧
      after.next 0 - before.next 0 = 1 ∧
      before.shedding = some { shedMask := 2 } ∧
      after.shedding = some { shedMask := 2, consecutiveLate := 2 } ∧
      ((fun s => s.observe sheddingPlan 0 true)^[after.next 0 - before.next 0] before).shedding =
        some { shedMask := 2, consecutiveLate := 1 } := by
  refine ⟨sheddingPlan_finalized, by decide +kernel, ?_⟩
  obtain ⟨⟨ctx, before, after⟩, hrange, hvalues⟩ := Option.map_eq_some_iff.mp (by decide +kernel :
    (omittedRange sheddingPlan (sheddingPlan.run (sheddingPlan.initialState ()) [])
      (sheddingStep 0 120 fun _ => 1000) 2 0).map (fun range =>
        (range.2.2.next 0 - range.2.1.next 0, range.2.1.shedding, range.2.2.shedding)) =
      some (1, some { shedMask := 2 }, some { shedMask := 2, consecutiveLate := 2 }))
  obtain ⟨hcount, hbefore, hafter⟩ := by simpa using hvalues
  refine ⟨ctx, before, after, omittedRange_rangeOmitted (by decide +kernel) hrange, hcount, hbefore,
    hafter, ?_⟩
  rw [hcount, observe_iterate_shedding (by decide +kernel), hbefore]
  decide +kernel

/-! ## The late flag of a range -/

/-- A record says the same of every release of its range: one domain, one action for one
reason under one shed mask, and a late flag that holds for each of them at one reading of
the clock. -/
structure RangeUniform (ctx : StepContext ω ε) (before after : StepState ω ε) (index : ℕ)
    (record : RateActionRecord) : Prop where
  domain : record.domainIndex = index
  first : record.firstSequence = before.next index
  count : record.firstSequence + record.releaseCount = after.next index
  others : ∀ other ≠ index, after.next other = before.next other
  action :
    before.alreadyShed ctx.plan index ∧ record.action = .optionalShed ∧
        record.reason = .alreadyShed ∨
      before.alreadyShed ctx.plan index = false ∧ record.late ∧ record.reason = .deadlineLate ∧
        ((ctx.plan.domain index).lateAction = .skip ∧ record.action = .skip ∨
          (ctx.plan.domain index).lateAction = .hold ∧ record.action = .hold)
  mask : record.transition = before.currentPolicyState record.reason
  mask_after : after.shedMask = before.shedMask
  late : ∃ reading < after.reads, ∀ sequence, record.firstSequence ≤ sequence →
    sequence < record.firstSequence + record.releaseCount →
      (record.late ↔ ctx.deadline index sequence < ctx.readings reading)

/-- Whenever a range of a shed domain is omitted when the deadline of its first release has passed,
that of its last release has passed too. -/
def ShedRangesSettled (plan : ActivePlan) (state : ActiveState ω ε) (input : StepInput ω ε) : Prop :=
  ∀ ctx index before after, RangeOmitted plan state input ctx index before after →
    before.alreadyShed plan index → ctx.deadline index (before.next index) <
      input.readings before.reads →
        ctx.deadline index (after.next index - 1) < input.readings before.reads

/-- On a clock that does not go back, all records of ranges are uniform if and only if
`ShedRangesSettled` holds.  Every record of the step is about one range or one release, and a
record with a transition is about one release. -/
theorem rate_ranges_uniform (plan : ActivePlan) (state : ActiveState ω ε)
    (hreplay : state.replay = none) (input : StepInput ω ε) (hclock : Monotone input.readings) :
    ((∀ ctx index before after, RangeOmitted plan state input ctx index before after →
      ∃ record, after.rateLog = before.rateLog ++ [record] ∧
        RangeUniform ctx before after index record) ↔ ShedRangesSettled plan state input) ∧
    ∃ emitted, (plan.step state input).state.rateLog = state.rateLog ++ emitted ∧
      ∀ record ∈ emitted, StepEmits plan state input record ∧
        (record.transition.id ≠ .none → record.releaseCount = 1) := by
  refine ⟨forall₄_congr fun ctx index before after => ?_, ?_⟩
  · refine forall_congr' ?_
    rintro ⟨first, s, hbegin, hturn, hrange⟩
    obtain ⟨reading, target, records, hknown⟩ := hrange.known
    have hbegun := beginStep_eq_ok hbegin
    have hnone : s.replay = none :=
      hturn.continues.replay (by rw [hbegun.state_eq]; exact hreplay)
    obtain ⟨hflag, hreads⟩ := hknown.rangeLate_eq hnone
    have hshed := alreadyShed_congr hknown.mask ctx.plan index
    have hmonotone {i j : ℕ} (hle : i ≤ j) : ctx.readings i ≤ ctx.readings j := by
      rw [hbegun.readings_eq]
      exact hclock hle
    have hnow : ctx.probeNow s index reading = ctx.readings reading :=
      RangeKnown.probeNow_eq hnone
    have hdue := hknown.due
    have hlast : after.next index - 1 = target - 1 := by
      rw [hknown.omitted.next, update_self]
    have hcount : before.next index + (target - before.next index) = target := by
      rw [hknown.next]
      omega
    -- A range whose first release is late at the probe is late as a whole.
    have hprobed (hprobe : ctx.probeLate s index reading) :
        ctx.deadline index (target - 1) < ctx.readings before.reads := by
      have := hknown.late hprobe (target - 1) (by omega) (by omega)
      rw [hnow] at this
      exact this.trans_le (hmonotone hknown.reads.le)
    rw [hlast, ← hbegun.readings_eq, ← hbegun.plan_eq, hshed, hknown.next]
    constructor
    · rintro ⟨record, hrecord, huniform⟩ - hfirst
      obtain rfl := singleton_inj.mp (append_cancel_left
        (hknown.omitted.rateLog.symm.trans hrecord))
      obtain ⟨at_, hat, huniform⟩ := huniform.late
      dsimp only [rangeRecord] at huniform
      rw [hflag, hcount, hknown.next] at huniform
      refine ((huniform (target - 1) (by omega) (by omega)).mp (decide_eq_true hfirst)).trans_le ?_
      exact hmonotone (by omega)
    · intro hsettled
      -- Only a shed domain has a range whose first release is on time at the probe.
      have hcases : ctx.deadline index (target - 1) < ctx.readings before.reads ∨
          s.alreadyShed ctx.plan index ∧
            ctx.readings before.reads ≤ ctx.deadline index (s.next index) := by
        by_cases hprobe : ctx.probeLate s index reading
        · exact .inl (hprobed hprobe)
        · have hshed : s.alreadyShed ctx.plan index := by
            have := hknown.omission
            simpa [omission, hprobe] using this
          by_cases hfirst : ctx.deadline index (s.next index) < ctx.readings before.reads
          · exact .inl (hsettled hshed hfirst)
          · exact .inr ⟨hshed, Nat.le_of_not_lt hfirst⟩
      refine ⟨_, hknown.omitted.rateLog, rfl, rfl, ?_, ?_, ?_, rfl, ?_, ?_⟩
      · rw [hknown.omitted.next, update_self]
        exact hcount
      · intro other hother
        rw [hknown.omitted.next, update_of_ne hother]
      · rw [hshed]
        dsimp only [rangeRecord]
        rw [hflag, omissionAction, hshed]
        cases halready : s.alreadyShed ctx.plan index with
        | true => exact .inl ⟨rfl, rfl, rfl⟩
        | false =>
          have hlate := hcases.resolve_right (by simp [halready])
          have homits : ctx.omitsLate index := by
            have := hknown.omission
            simp only [omission, halready, Bool.false_or, Bool.and_eq_true] at this
            exact this.1.2
          refine .inr ⟨rfl, decide_eq_true ((ctx.deadline_mono index (by omega)).trans_lt hlate), ?_⟩
          simp only [omitsLate, Bool.or_eq_true, decide_eq_true_eq] at homits
          rcases homits with hskip | hhold
          · simp [hskip, omissionReason]
          · simp [hhold, omissionReason]
      · refine shedMask_eq_of_map ?_
        rw [hknown.omitted.shedding]
        exact streakAfterRange_mask ctx _ _
      · dsimp only [rangeRecord]
        rw [hflag, hcount, hreads, hknown.next]
        refine ⟨before.reads, Nat.lt_succ_self _, fun sequence hfirst hend => ?_⟩
        have hlower := ctx.deadline_mono index hfirst
        have hupper := ctx.deadline_mono index (Nat.le_sub_one_of_lt hend)
        simp only [decide_eq_true_eq]
        omega
  · obtain ⟨-, emitted, hlog, hemitted⟩ := step_continues plan state input
    refine ⟨emitted, hlog, fun record hrecord => ⟨hemitted record hrecord, fun htransition => ?_⟩⟩
    rcases hemitted record hrecord with hone | ⟨ctx, index, before, after, hrange, hrecord⟩
    · exact hone
    · obtain ⟨first, s, -, -, hat⟩ := hrange
      obtain ⟨reading, target, records, hknown⟩ := hat.known
      obtain rfl := singleton_inj.mp (append_cancel_left
        (hknown.omitted.rateLog.symm.trans hrecord))
      exact absurd rfl htransition

/-- The state after a step in which everything was late: the optional domain is shed. -/
def sheddingLate : ActiveState Unit Unit :=
  sheddingPlan.run (sheddingPlan.initialState ()) [sheddingStep 0 120 fun _ => 1000]

/-- The clock passes all deadlines of the step at once. -/
def passingStep : StepInput Unit Unit :=
  sheddingStep 120 40 fun reading => if reading ≤ 4 then 125 else 1000

theorem passingStep_settled : ShedRangesSettled sheddingPlan sheddingLate passingStep := by
  rintro ctx index before after ⟨first, s, hbegin, hturn, hrange⟩ hshed hpassed
  obtain ⟨reading, target, records, hknown⟩ := hrange.known
  have hvalues : (beginStep sheddingPlan passingStep.machine passingStep.readings passingStep.frame
      sheddingLate).toOption.map (fun begun => (begun.1.deadline 1 12, begun.1.deadline 1 15,
        begun.1.endSequence 1, begun.2.next 1)) = some (130, 160, 16, 12) := by
    decide +kernel
  rw [hbegin] at hvalues
  simp only [Except.toOption, Option.map_some, Option.some.injEq, Prod.mk.injEq] at hvalues
  obtain ⟨hearliest, hlatest, hend, hfirst⟩ := hvalues
  obtain rfl : index = 1 := by
    obtain ⟨-, -, earlier, later, -, horder, -⟩ := hrange.turn
    have hindex : index ∈ ctx.indices := by simp [horder]
    rw [indices, (beginStep_eq_ok hbegin).plan_eq, mem_range] at hindex
    have hoptional := ((Bool.and_eq_true _ _).mp hshed).1
    have honly : ∀ index < sheddingPlan.domainCount,
        (sheddingPlan.domain index).optional → index = 1 := by
      decide +kernel
    exact honly index hindex hoptional
  have hlower := ctx.deadline_mono 1 (hfirst ▸ hturn.continues.next 1)
  have hupper : ctx.deadline 1 (after.next 1 - 1) ≤ ctx.deadline 1 15 := by
    refine ctx.deadline_mono 1 ?_
    rw [hknown.omitted.next, update_self]
    have := hknown.end_le
    omega
  rw [hknown.next] at hpassed
  simp only [passingStep, sheddingStep] at hpassed ⊢
  split_ifs at hpassed ⊢ <;> omega

/-- The shed domain has a range of three releases that are on time at the probe and late at the
range. -/
theorem rate_ranges_uniform_passing :
    ∃ ctx before after, RangeOmitted sheddingPlan sheddingLate passingStep ctx 1 before after ∧
      after.next 1 - before.next 1 = 3 ∧
      ∃ record, after.rateLog = before.rateLog ++ [record] ∧
        RangeUniform ctx before after 1 record := by
  obtain ⟨⟨ctx, before, after⟩, hrange, hcount⟩ := Option.map_eq_some_iff.mp (by decide +kernel :
    (omittedRange sheddingPlan sheddingLate passingStep 1 1).map (fun range =>
      range.2.2.next 1 - range.2.1.next 1) = some 3)
  have homitted := omittedRange_rangeOmitted (by decide +kernel) hrange
  have hclock : Monotone passingStep.readings := by
    intro first second hle
    simp only [passingStep, sheddingStep]
    split <;> split <;> omega
  exact ⟨ctx, before, after, homitted, hcount, (rate_ranges_uniform sheddingPlan sheddingLate
    (by decide +kernel) passingStep hclock).1.mpr passingStep_settled ctx 1 before after homitted⟩

/-- The clock passes the deadline 140 of release 13 between the probe and the range. -/
def crossingStep : StepInput Unit Unit :=
  sheddingStep 120 40 fun reading => if reading ≤ 4 then 135 else 145

/-- The optional domain is shed, its release 13 is on time when the barrier is found and late
when the range is omitted. The record of the range 13, 14, 15 says late, although the
deadline 150 of release 14 is later than every reading. -/
theorem range_late_crosses :
    sheddingPlan.Finalized ∧ Monotone crossingStep.readings ∧
    ∃ ctx before after record, RangeOmitted sheddingPlan
        sheddingLate crossingStep ctx 1 before after ∧
      after.rateLog = before.rateLog ++ [record] ∧
      record.firstSequence = 13 ∧ record.releaseCount = 3 ∧
      ¬ ∃ reading, ∀ sequence, record.firstSequence ≤ sequence →
        sequence < record.firstSequence + record.releaseCount →
          (record.late ↔ ctx.deadline 1 sequence < ctx.readings reading) := by
  have hclock : Monotone crossingStep.readings := by
    intro first second hle
    simp only [crossingStep, sheddingStep]
    split <;> split <;> omega
  refine ⟨sheddingPlan_finalized, hclock, ?_⟩
  obtain ⟨⟨ctx, before, after⟩, hrange, hvalues⟩ := Option.map_eq_some_iff.mp (by decide +kernel :
    (omittedRange sheddingPlan sheddingLate crossingStep 1 1).map (fun range =>
        (range.1.deadline 1 14, range.2.2.rateLog.getLast?.map fun record =>
          (record.firstSequence, record.releaseCount, record.late))) =
      some (150, some (13, 3, true)))
  have homitted := omittedRange_rangeOmitted (by decide +kernel) hrange
  obtain ⟨first, s, hbegin, -, hat⟩ := id homitted
  obtain ⟨reading, target, records, hknown⟩ := hat.known
  rw [hknown.omitted.rateLog, getLast?_concat] at hvalues
  obtain ⟨hdeadline, hrecord⟩ := Prod.mk.inj hvalues
  obtain ⟨hfirst, hrest⟩ := Prod.mk.inj (Option.some.inj hrecord)
  obtain ⟨hcount, hlate⟩ := Prod.mk.inj hrest
  refine ⟨ctx, before, after, _, homitted, hknown.omitted.rateLog, hfirst, hcount, ?_⟩
  rintro ⟨reading, hall⟩
  have hfourteen := (hall 14 (by omega) (by omega)).mp hlate
  rw [hdeadline, (beginStep_eq_ok hbegin).readings_eq] at hfourteen
  simp only [crossingStep, sheddingStep] at hfourteen
  split at hfourteen <;> omega

end RtRuntime
