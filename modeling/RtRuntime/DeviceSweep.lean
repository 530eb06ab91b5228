import RtRuntime.DeviceIntervals

/-!
# The device sweep

The sweep of the device-rate compiler counts the open intervals of every phase, of every
backend and of the runtime in 32-bit counters, and then the completions of every backend
that fall on one instant. Here the counters are tied to the schedule of the intervals
(`Sweeps`), and the groups of completions to their classes (`PeaksOf`).
-/

namespace RtRuntime

open Function List

/-! ## Counters of 32 bits -/

theorem toNat_add_one {c : UInt32} (h : c.toNat + 1 < 2 ^ 32) : (c + 1).toNat = c.toNat + 1 := by
  rw [UInt32.toNat_add, UInt32.toNat_one, Nat.mod_eq_of_lt h]

theorem toNat_sub_one {c : UInt32} (h : 0 < c.toNat) : (c - 1).toNat = c.toNat - 1 := by
  have hle : (1 : UInt32) ≤ c := UInt32.le_iff_toNat_le.mpr h
  rw [UInt32.toNat_sub_of_le _ _ hle, UInt32.toNat_one]

theorem max_le_of_le {a b c : UInt32} (ha : a ≤ c) (hb : b ≤ c) : max a b ≤ c := by
  rw [UInt32.le_iff_toNat_le] at ha hb ⊢
  rw [UInt32.toNat_max]
  exact max_le ha hb

namespace DeviceRateInputs

variable {inputs : DeviceRateInputs}

/-! ## Classes and limits -/

/-- The messages that report an exceeded in-flight capacity. -/
def InFlightRejection (d : DeviceRateDiagnostic) : Prop :=
  d.message = some "device-rate cyclic carry exceeds an in-flight capacity" ∨
    d.message = some "device-rate release exceeds an in-flight capacity"

/-- The message that reports an exceeded completion capacity. -/
def CompletionRejection (d : DeviceRateDiagnostic) : Prop :=
  d.message = some "device-rate poll boundary exceeds completion-batch capacity"

/-- The message that reports counters which did not return to their start. -/
def UnbalancedRejection (d : DeviceRateDiagnostic) : Prop :=
  d.message = some "device-rate admission is not cyclically balanced"

namespace SweepInputs

variable (sweep : SweepInputs)

/-- `maximum_in_flight` of the phase at a position. -/
def phaseLimit (n : ℕ) : UInt32 := (sweep.tables.phases.getD n {}).maximumInFlight

end SweepInputs

/-- `max_in_flight_batches` of the backend at a position. -/
def batchLimit (inputs : DeviceRateInputs) (m : ℕ) : UInt32 :=
  (inputs.backends.getD m {}).capabilities.maxInFlightBatches

/-- The counters stay within the capacities. -/
structure WithinLimits (inputs : DeviceRateInputs) (sweep : SweepInputs) (phase backend : ℕ → UInt32)
    (global : UInt32) : Prop where
  phase_le : ∀ n, phase n ≤ sweep.phaseLimit n
  backend_le : ∀ m, backend m ≤ inputs.batchLimit m
  global_le : global ≤ inputs.runtimeOutstandingCapacity

variable {sweep : SweepInputs} {demand : Demand} {interval : DeviceRateAdmissionInterval}

theorem exceeds_eq_false (h : ¬ inputs.exceeds sweep demand interval = true) :
    demand.phase (sweep.phaseIndex interval) ≤ sweep.phaseLimit (sweep.phaseIndex interval) ∧
      demand.backend (sweep.backendIndex interval) ≤
        inputs.batchLimit (sweep.backendIndex interval) ∧
      demand.global ≤ inputs.runtimeOutstandingCapacity := by
  simp only [exceeds, Bool.or_eq_true, decide_eq_true_eq, not_or, gt_iff_lt, UInt32.not_lt] at h
  exact ⟨h.1.1, h.1.2, h.2⟩

/-- A table of counters with one entry set keeps within its limits. -/
theorem update_le {c limit : ℕ → UInt32} {i : ℕ} {v : UInt32} (hc : ∀ n, c n ≤ limit n)
    (hv : v ≤ limit i) : ∀ n, update c i v n ≤ limit n :=
  (forall_update_iff c fun n w => w ≤ limit n).mpr ⟨hv, fun n _ => hc n⟩

/-! ## The intervals that cross the seam -/

/-- The number of mandatory intervals of a class among those that cross the seam. -/
def carriedIn (q : DeviceRateAdmissionInterval → Bool) (done : List DeviceRateAdmissionInterval) :
    ℕ :=
  done.countP fun interval => !interval.optional && interval.carriesAcrossSupercycle && q interval

theorem carriedIn_concat (q : DeviceRateAdmissionInterval → Bool)
    (done : List DeviceRateAdmissionInterval) (interval : DeviceRateAdmissionInterval) :
    carriedIn q (done ++ [interval]) = carriedIn q done +
      if !interval.optional && interval.carriesAcrossSupercycle && q interval then 1 else 0 := by
  rw [carriedIn, countP_append, countP_singleton]
  rfl

/-- The counters after the intervals in `done`. -/
structure CountsCarry (inputs : DeviceRateInputs) (sweep : SweepInputs)
    (done : List DeviceRateAdmissionInterval) (demand : Demand) : Prop where
  phase : ∀ n, (demand.phase n).toNat = carriedIn (fun iv => sweep.phaseIndex iv = n) done
  backend : ∀ m, (demand.backend m).toNat = carriedIn (fun iv => sweep.backendIndex iv = m) done
  global : demand.global.toNat = carriedIn (fun _ => true) done
  within : inputs.WithinLimits sweep demand.phase demand.backend demand.global

/-- One more entry of a class raises its counter. -/
theorem toNat_update_add {c : ℕ → UInt32} {i n : ℕ} (h : (c n).toNat + 1 < 2 ^ 32) :
    (update c i (c i + 1) n).toNat = (c n).toNat + if i = n then 1 else 0 := by
  by_cases hn : i = n
  · subst hn
    rw [update_self, if_pos rfl, toNat_add_one h]
  · rw [update_of_ne (Ne.symm hn), if_neg hn, Nat.add_zero]

theorem CountsCarry.begin : inputs.CountsCarry sweep [] {} where
  phase _ := rfl
  backend _ := rfl
  global := rfl
  within := ⟨fun _ => UInt32.zero_le, fun _ => UInt32.zero_le, UInt32.zero_le⟩

variable {done : List DeviceRateAdmissionInterval}

/-- The counters raised for one more interval. -/
theorem CountsCarry.raise (interval : DeviceRateAdmissionInterval)
    (h : inputs.CountsCarry sweep done demand) (hlen : done.length + 1 < 2 ^ 32)
    (hcarry : (!interval.optional && interval.carriesAcrossSupercycle) = true) :
    let raised := demand.raise (sweep.phaseIndex interval) (sweep.backendIndex interval)
    (∀ n, (raised.phase n).toNat =
        carriedIn (fun iv => sweep.phaseIndex iv = n) (done ++ [interval])) ∧
      (∀ m, (raised.backend m).toNat =
        carriedIn (fun iv => sweep.backendIndex iv = m) (done ++ [interval])) ∧
      raised.global.toNat = carriedIn (fun _ => true) (done ++ [interval]) := by
  intro raised
  have hsmall : ∀ q, carriedIn q done + 1 < 2 ^ 32 := fun q =>
    (Nat.add_le_add_right countP_le_length 1).trans_lt hlen
  refine ⟨fun n => ?_, fun m => ?_, ?_⟩
  · have hn := h.phase n
    change (update demand.phase _ _ n).toNat = _
    rw [toNat_update_add (hn ▸ hsmall _), hn, carriedIn_concat, hcarry]
    simp
  · have hm := h.backend m
    change (update demand.backend _ _ m).toNat = _
    rw [toNat_update_add (hm ▸ hsmall _), hm, carriedIn_concat, hcarry]
    simp
  · have hg := h.global
    change (demand.global + 1).toNat = _
    rw [toNat_add_one (hg ▸ hsmall _), hg, carriedIn_concat, hcarry]
    simp

/-- One turn of the loop over the intervals that cross the seam. -/
theorem CountsCarry.step {demand' : Demand} (h : inputs.CountsCarry sweep done demand)
    (hlen : done.length + 1 < 2 ^ 32)
    (hstep : inputs.countCarry sweep demand interval = .ok demand') :
    inputs.CountsCarry sweep (done ++ [interval]) demand' := by
  rw [countCarry] at hstep
  split at hstep
  · rename_i hskip
    cases hstep
    have hnone : (!interval.optional && interval.carriesAcrossSupercycle) = false := by
      cases ho : interval.optional <;> simp_all
    have hsame : ∀ q, carriedIn q (done ++ [interval]) = carriedIn q done := fun q => by
      rw [carriedIn_concat, hnone]
      simp
    refine ⟨fun n => ?_, fun m => ?_, ?_, h.within⟩
    · rw [hsame, h.phase]
    · rw [hsame, h.backend]
    · rw [hsame, h.global]
  · rename_i hcarry
    rw [reject_bind_eq_ok] at hstep
    obtain ⟨hfits, hstep⟩ := hstep
    cases hstep
    obtain ⟨hphase, hbackend, hglobal⟩ := h.raise interval hlen (by
      cases ho : interval.optional <;> simp_all)
    obtain ⟨h1, h2, h3⟩ := exceeds_eq_false hfits
    exact ⟨hphase, hbackend, hglobal, update_le h.within.phase_le (by simpa [Demand.raise] using h1),
      update_le h.within.backend_le (by simpa [Demand.raise] using h2), h3⟩

namespace Gathered

variable {sweep : SweepInputs} {collected : IntervalState} (h : inputs.Gathered sweep collected)

theorem carriedIn_eq (q : DeviceRateAdmissionInterval → Bool) :
    carriedIn q sweep.intervals = h.schedule.carry fun k => q (sweep.interval k) := by
  have hcarry : (h.schedule.carry fun k => q (sweep.interval k)) =
      ((sweep.intervals.zipIdx.filter fun e => !e.1.optional).map (·.2)).countP fun k =>
        q (sweep.interval k) && h.schedule.carries k := rfl
  rw [hcarry, countP_map, countP_filter, carriedIn]
  conv_lhs => rw [← zipIdx_map_fst 0 sweep.intervals, countP_map]
  refine countP_congr fun e he => ?_
  have hk := mem_zipIdx_iff_getElem?.mp he
  have hinterval := SweepInputs.interval_eq hk
  have hcarries : h.schedule.carries e.2 = e.1.carriesAcrossSupercycle := by
    rw [(h.intervalOf hk).2.carries, ← hinterval]
    rfl
  simp only [Function.comp, hinterval, hcarries, Bool.and_eq_true]
  tauto

include h in
theorem length_intervals_lt : sweep.intervals.length < 2 ^ 31 := by
  have hle : sweep.intervals.length ≤ referenceReleaseCapacity := by
    rw [← h.forall₂.length_eq]
    refine (length_filter_le _ _).trans ?_
    rw [length_zipIdx]
    exact h.timeline.releases_le
  exact hle.trans_lt (by decide)

include h in
theorem countsCarry (rest : List DeviceRateAdmissionInterval)
    (hsplit : sweep.intervals = done ++ rest)
    (hdone : done.foldlM (inputs.countCarry sweep) {} = .ok demand) :
    inputs.CountsCarry sweep done demand := by
  have hlen := h.length_intervals_lt
  rw [hsplit, length_append] at hlen
  refine foldlM_invariant (P := fun d t => inputs.CountsCarry sweep d t) hdone .begin ?_
  rintro d interval r t t' hd hc hstep
  rw [hd, length_append, length_cons] at hlen
  exact hc.step (by omega) hstep

end Gathered

/-! ## The events -/

section Family

/- A family of counters and peaks, one for each value of `index`. -/
variable {s : CyclicSchedule ℕ} {events done rest : List (SweepEvent ℕ)} {e : SweepEvent ℕ}
  {index : ℕ → ℕ} {counter peak : ℕ → UInt32}

/-- Every counter of the family follows its class. -/
def FollowsAll (s : CyclicSchedule ℕ) (index : ℕ → ℕ) (done : List (SweepEvent ℕ))
    (counter peak : ℕ → UInt32) : Prop :=
  ∀ n, s.Follows (fun k => index k = n) done (counter n).toNat (peak n).toNat

variable (h : s.IsSweep events) (hsplit : events = done ++ e :: rest)
  (hf : FollowsAll s index done counter peak)
include h hsplit hf

theorem FollowsAll.start (hsmall : s.items.length + 1 < 2 ^ 32) (hr : e.release = true) :
    FollowsAll s index (done ++ [e])
      (update counter (index e.item) (counter (index e.item) + 1))
      (update peak (index e.item)
        (max (peak (index e.item)) (counter (index e.item) + 1))) := by
  intro n
  by_cases hn : n = index e.item
  · subst hn
    have hlen : (counter (index e.item)).toNat ≤ s.items.length := by
      rw [(hf _).counter_eq]
      exact CyclicSchedule.demand_le_length
    rw [update_self, update_self, UInt32.toNat_max, toNat_add_one (by omega)]
    exact (hf _).start h hsplit (by simp) hr
  · rw [update_of_ne hn, update_of_ne hn]
    exact (hf n).other (by simp [Ne.symm hn])

theorem FollowsAll.stop (hr : e.release = false) :
    0 < (counter (index e.item)).toNat ∧
    FollowsAll s index (done ++ [e])
      (update counter (index e.item) (counter (index e.item) - 1)) peak := by
  obtain ⟨hpos, hlow⟩ := (hf (index e.item)).stop h hsplit (by simp) hr
  refine ⟨hpos, fun n => ?_⟩
  by_cases hn : n = index e.item
  · subst hn
    rw [update_self, toNat_sub_one hpos]
    exact hlow
  · rw [update_of_ne hn]
    exact (hf n).other (by simp [Ne.symm hn])

end Family

namespace Gathered

variable {sweep : SweepInputs} {collected : IntervalState} (h : inputs.Gathered sweep collected)

/-- The state of the sweep after the events in `done`. -/
structure Sweeps (done : List (SweepEvent ℕ)) (state : SweepState) : Prop where
  phase : FollowsAll h.schedule (fun k => sweep.phaseIndex (sweep.interval k)) done
    state.demand.phase state.phasePeak
  backend : FollowsAll h.schedule (fun k => sweep.backendIndex (sweep.interval k)) done
    state.demand.backend state.backendPeak
  global : h.schedule.Follows (fun _ => true) done state.demand.global.toNat state.globalPeak.toNat
  within : inputs.WithinLimits sweep state.phasePeak state.backendPeak state.globalPeak

variable {h}

/-- The sweep begins with the intervals that cross the seam. -/
theorem Sweeps.begin (hdone : sweep.intervals.foldlM (inputs.countCarry sweep) {} = .ok demand) :
    h.Sweeps [] (.begin demand) := by
  have hc := h.countsCarry [] (by simp) hdone
  refine ⟨fun n => ?_, fun m => ?_, ?_, hc.within⟩
  · simp only [SweepState.begin, hc.phase n, h.carriedIn_eq]
    exact .begin
  · simp only [SweepState.begin, hc.backend m, h.carriedIn_eq]
    exact .begin
  · simp only [SweepState.begin, hc.global, h.carriedIn_eq]
    exact .begin

section Step

variable {done rest : List (SweepEvent ℕ)} {e : SweepEvent ℕ} {state state' : SweepState}
  (hs : h.Sweeps done state) (hsplit : sortEvents collected.events = done ++ e :: rest)
include hs hsplit

/-- At a stop no counter is at zero. -/
theorem Sweeps.no_underflow (hr : e.release = false) :
    state.demand.phase (sweep.phaseIndex (sweep.interval e.item)) ≠ 0 ∧
      state.demand.backend (sweep.backendIndex (sweep.interval e.item)) ≠ 0 ∧
      state.demand.global ≠ 0 := by
  have hpos : ∀ c : UInt32, 0 < c.toNat → c ≠ 0 := by
    rintro c hc rfl
    exact absurd hc (by decide)
  refine ⟨hpos _ (hs.phase.stop h.isSweep hsplit hr).1,
    hpos _ (hs.backend.stop h.isSweep hsplit hr).1, hpos _ ?_⟩
  exact (hs.global.stop h.isSweep hsplit rfl hr).1

/-- One event. -/
theorem Sweeps.step (hstep : inputs.sweepStep sweep state e = .ok state') :
    h.Sweeps (done ++ [e]) state' := by
  have hlen := h.items_length_le
  have hsmall : h.schedule.items.length + 1 < 2 ^ 32 :=
    (Nat.add_le_add_right hlen 1).trans_lt (by decide)
  cases hr : e.release with
  | false =>
    rw [sweepStep, if_neg (by simp [hr])] at hstep
    cases hstep
    obtain ⟨hpos, hglobal⟩ := hs.global.stop h.isSweep hsplit rfl hr
    refine ⟨(hs.phase.stop h.isSweep hsplit hr).2, (hs.backend.stop h.isSweep hsplit hr).2, ?_,
      hs.within⟩
    change h.schedule.Follows _ _ (state.demand.global - 1).toNat _
    rw [toNat_sub_one hpos]
    exact hglobal
  | true =>
    rw [sweepStep, if_pos hr, reject_bind_eq_ok] at hstep
    obtain ⟨hfits, hstep⟩ := hstep
    cases hstep
    obtain ⟨h1, h2, h3⟩ := exceeds_eq_false hfits
    simp only [Demand.raise, update_self] at h1 h2 h3 ⊢
    refine ⟨hs.phase.start h.isSweep hsplit hsmall hr, hs.backend.start h.isSweep hsplit hsmall hr,
      ?_, ⟨update_le hs.within.phase_le ?_, update_le hs.within.backend_le ?_, ?_⟩⟩
    · have hcount : state.demand.global.toNat ≤ h.schedule.items.length := by
        rw [hs.global.counter_eq]
        exact CyclicSchedule.demand_le_length
      simp only [UInt32.toNat_max, toNat_add_one (show state.demand.global.toNat + 1 < 2 ^ 32 by omega)]
      exact hs.global.start h.isSweep hsplit rfl hr
    · exact max_le_of_le (hs.within.phase_le _) h1
    · exact max_le_of_le (hs.within.backend_le _) h2
    · exact max_le_of_le (hs.within.global_le) h3

end Step

theorem Sweeps.all {final : SweepState}
    (hcarry : sweep.intervals.foldlM (inputs.countCarry sweep) {} = .ok demand)
    {done rest : List (SweepEvent ℕ)} (hsplit : sortEvents collected.events = done ++ rest)
    (hdone : done.foldlM (inputs.sweepStep sweep) (.begin demand) = .ok final) :
    h.Sweeps done final := by
  refine foldlM_invariant (P := fun d t => h.Sweeps d t) hdone (.begin hcarry) ?_
  rintro d e r t t' hd hs hstep
  have hevents : sortEvents collected.events = d ++ e :: (r ++ rest) := by
    rw [hsplit, hd]
    simp
  exact hs.step hevents hstep

/-! ## Capacities that are exceeded -/

/-- At instant `t` one of the three capacities of the interval is exceeded. -/
def ExceededAt (h : inputs.Gathered sweep collected) (interval : DeviceRateAdmissionInterval)
    (t : ℕ) : Prop :=
  (sweep.phaseLimit (sweep.phaseIndex interval)).toNat <
      h.schedule.openAt (fun k => sweep.phaseIndex (sweep.interval k) = sweep.phaseIndex interval)
        t ∨
    (inputs.batchLimit (sweep.backendIndex interval)).toNat <
      h.schedule.openAt
        (fun k => sweep.backendIndex (sweep.interval k) = sweep.backendIndex interval) t ∨
    inputs.runtimeOutstandingCapacity.toNat < h.schedule.openAt (fun _ => true) t

theorem period_pos : 0 < h.schedule.period := h.timeline.supercycle_pos

/-- Counters that are reached at some instant and exceed a capacity. -/
theorem exceededAt {t : ℕ} (hexceeds : inputs.exceeds sweep demand interval = true)
    (hphase : (demand.phase (sweep.phaseIndex interval)).toNat ≤ h.schedule.openAt
      (fun k => sweep.phaseIndex (sweep.interval k) = sweep.phaseIndex interval) t)
    (hbackend : (demand.backend (sweep.backendIndex interval)).toNat ≤ h.schedule.openAt
      (fun k => sweep.backendIndex (sweep.interval k) = sweep.backendIndex interval) t)
    (hglobal : demand.global.toNat ≤ h.schedule.openAt (fun _ => true) t) :
    h.ExceededAt interval t := by
  simp only [exceeds, Bool.or_eq_true, decide_eq_true_eq, gt_iff_lt, UInt32.lt_iff_toNat_lt]
    at hexceeds
  rcases hexceeds with (hlt | hlt) | hlt
  · exact Or.inl (hlt.trans_le hphase)
  · exact Or.inr (Or.inl (hlt.trans_le hbackend))
  · exact Or.inr (Or.inr (hlt.trans_le hglobal))

/-- The loop over the seam stops only if the seam itself exceeds a capacity. -/
theorem countCarry_error {d : DeviceRateDiagnostic}
    (herror : sweep.intervals.foldlM (inputs.countCarry sweep) {} = .error d) :
    d.status ≠ .ok ∧ InFlightRejection d ∧ ∃ interval ∈ sweep.intervals, d.phase = interval.phase ∧
      ∃ t, h.ExceededAt interval t := by
  obtain ⟨done, interval, rest, demand, hsplit, hdone, hstep⟩ := foldlM_eq_error herror
  have hc := h.countsCarry _ hsplit hdone
  have hlen := h.length_intervals_lt
  rw [hsplit, length_append, length_cons] at hlen
  rw [countCarry] at hstep
  split at hstep
  · cases hstep
  rename_i hcarry
  rcases reject_bind_eq_error.mp hstep with ⟨hexceeds, rfl⟩ | ⟨-, hstep⟩
  swap
  · cases hstep
  refine ⟨by rintro ⟨⟩, Or.inl rfl, interval, by simp [hsplit], rfl, h.schedule.period, ?_⟩
  obtain ⟨hphase, hbackend, hglobal⟩ := hc.raise interval (by omega) (by
    cases ho : interval.optional <;> simp_all)
  -- a part of the intervals that cross the seam is open when the period begins again
  have hopen : ∀ q, carriedIn q (done ++ [interval]) ≤
      h.schedule.openAt (fun k => q (sweep.interval k)) h.schedule.period := by
    intro q
    rw [CyclicSchedule.openAt_eq_steady h.period_pos le_rfl, Nat.mod_self]
    refine le_trans ?_ CyclicSchedule.carry_le_steady
    rw [← h.carriedIn_eq, hsplit, show done ++ interval :: rest = done ++ [interval] ++ rest by simp]
    exact Sublist.countP_le (sublist_append_left _ _)
  exact exceededAt hexceeds ((hphase _).le.trans (hopen _)) ((hbackend _).le.trans (hopen _))
    (hglobal.le.trans (hopen _))

/-- The sweep stops only at an instant that exceeds a capacity. -/
theorem sweepStep_error {d : DeviceRateDiagnostic}
    (hcarry : sweep.intervals.foldlM (inputs.countCarry sweep) {} = .ok demand)
    (herror : (sortEvents collected.events).foldlM (inputs.sweepStep sweep) (.begin demand) =
      .error d) :
    d.status ≠ .ok ∧ InFlightRejection d ∧ ∃ k ∈ h.schedule.items, d.phase = (sweep.interval k).phase ∧
      ∃ t, h.ExceededAt (sweep.interval k) t := by
  obtain ⟨done, e, rest, state, hsplit, hdone, hstep⟩ := foldlM_eq_error herror
  have hs : h.Sweeps done state := .all hcarry hsplit hdone
  have hmem : e ∈ sortEvents collected.events := by simp [hsplit]
  cases hr : e.release with
  | false =>
    rw [sweepStep, if_neg (by simp [hr])] at hstep
    cases hstep
  | true =>
    rw [sweepStep, if_pos hr] at hstep
    rcases reject_bind_eq_error.mp hstep with ⟨hexceeds, rfl⟩ | ⟨-, hstep⟩
    swap
    · cases hstep
    have hitem := (h.isSweep.event_cases hmem).1
    have htime : e.time < h.schedule.period := by
      rw [h.isSweep.event_of_release hmem hr]
      exact h.schedule.start_lt _ hitem
    refine ⟨nofun, Or.inr rfl, e.item, hitem, rfl, h.schedule.period + e.time, ?_⟩
    have hsmall : h.schedule.items.length + 1 < 2 ^ 32 :=
      (Nat.add_le_add_right h.items_length_le 1).trans_lt (by decide)
    have hopen : ∀ (q : ℕ → Bool) (c : UInt32), q e.item = true → c.toNat = h.schedule.demand q done →
        (c + 1).toNat ≤ h.schedule.openAt q (h.schedule.period + e.time) := by
      intro q c hq hc
      have hle : h.schedule.demand q done ≤ h.schedule.items.length :=
        CyclicSchedule.demand_le_length
      have hraised := h.isSweep.demand_step hsplit hq
      simp only [hr, if_true, Bool.true_eq_false, if_false, Nat.add_zero] at hraised
      rw [CyclicSchedule.openAt_eq_steady h.period_pos (Nat.le_add_right _ _), Nat.add_mod_left,
        Nat.mod_eq_of_lt htime, toNat_add_one (by omega), hc, ← hraised]
      exact h.isSweep.demand_le_steady hsplit hr
    refine exceededAt hexceeds ?_ ?_ ?_
    · simp only [Demand.raise, update_self]
      exact hopen _ _ (by simp) (hs.phase _).counter_eq
    · simp only [Demand.raise, update_self]
      exact hopen _ _ (by simp) (hs.backend _).counter_eq
    · exact hopen _ _ rfl hs.global.counter_eq

end Gathered

/-! ## Completions at one instant -/

section Runs

variable {α κ : Type} [LinearOrder κ] (key : α → κ)

/-- In a sorted list the elements with the least key stand at its front. -/
theorem takeWhile_least {c : κ} {l : List α} (hsorted : l.Pairwise fun a b => key a ≤ key b)
    (hleast : ∀ a ∈ l, c ≤ key a) {p : α → Bool} (hp : ∀ a, p a = true ↔ key a = c) :
    (l.takeWhile p).length = l.countP p ∧ ∀ a ∈ l.dropWhile p, p a = false := by
  obtain ⟨htake, hdrop⟩ := takeWhile_dropWhile_eq_filter hsorted fun a ha b _ hab hb =>
    (hp a).mpr ((hab.trans ((hp b).mp hb).le).antisymm (hleast a ha))
  rw [htake, hdrop, countP_eq_length_filter]
  simp

end Runs

/-- The class of a completion: its time and its backend. -/
def completionClass (sweep : SweepInputs) (completion : ℕ × ℕ) : ℕ ×ₗ ℕ :=
  toLex (completion.1, (sweep.interval completion.2).backend.value.toNat)

theorem sameCompletion_iff {c d : ℕ × ℕ} :
    sameCompletion sweep c d = true ↔ completionClass sweep d = completionClass sweep c := by
  simp only [sameCompletion, Bool.and_eq_true, decide_eq_true_eq, completionClass,
    EmbeddingLike.apply_eq_iff_eq, Prod.mk.injEq, UInt64.toNat_inj]
  refine ⟨fun ⟨h1, h2⟩ => ⟨h1.symm, by rw [h2]⟩, fun ⟨h1, h2⟩ => ⟨h1.symm, ?_⟩⟩
  cases hc : (sweep.interval c.2).backend
  cases hd : (sweep.interval d.2).backend
  rw [hc, hd] at h2
  exact congrArg DeviceBackendHandle.mk h2.symm

theorem sorted_completions (sweep : SweepInputs) (completions : List (ℕ × ℕ)) :
    (sortCompletions sweep completions).Pairwise fun c d =>
      completionClass sweep c ≤ completionClass sweep d := by
  refine (pairwise_insertionSort _ _).imp fun {c d} hle => ?_
  rw [completionKey, completionKey, Prod.Lex.toLex_le_toLex] at hle
  rw [completionClass, completionClass, Prod.Lex.toLex_le_toLex]
  refine hle.imp_right fun ⟨heq, hle⟩ => ⟨heq, ?_⟩
  rw [Prod.Lex.toLex_le_toLex] at hle
  exact hle.elim le_of_lt fun hle => hle.1.le

/-- The completions of the class of `c`. -/
def classCount (sweep : SweepInputs) (l : List (ℕ × ℕ)) (c : ℕ × ℕ) : ℕ :=
  l.countP (sameCompletion sweep c)

section Completions

variable {sweep : SweepInputs} {first : ℕ × ℕ} {rest : List (ℕ × ℕ)}
  (hsorted : (first :: rest).Pairwise fun c d => completionClass sweep c ≤ completionClass sweep d)
include hsorted

/-- The first group is a whole class. -/
theorem first_group :
    1 + (rest.takeWhile (sameCompletion sweep first)).length =
        classCount sweep (first :: rest) first ∧
      ∀ c ∈ rest.dropWhile (sameCompletion sweep first), sameCompletion sweep first c = false := by
  obtain ⟨hfirst, hrest⟩ := pairwise_cons.mp hsorted
  obtain ⟨hlen, hdrop⟩ := takeWhile_least (completionClass sweep) hrest hfirst
    (p := sameCompletion sweep first) fun _ => sameCompletion_iff
  rw [classCount, countP_cons_of_pos (sameCompletion_iff.mpr rfl), hlen]
  exact ⟨Nat.add_comm _ _, hdrop⟩

omit hsorted in
/-- A completion is in the first group or in a class of the rest. -/
theorem group_cases {c : ℕ × ℕ} (hc : c ∈ first :: rest) :
    (sameCompletion sweep first c = true ∧
      classCount sweep (first :: rest) c = classCount sweep (first :: rest) first) ∨
    (c ∈ rest.dropWhile (sameCompletion sweep first) ∧ classCount sweep (first :: rest) c =
      classCount sweep (rest.dropWhile (sameCompletion sweep first)) c) := by
  cases hsame : sameCompletion sweep first c with
  | true =>
    refine Or.inl ⟨rfl, countP_congr fun d _ => ?_⟩
    rw [sameCompletion_iff, sameCompletion_iff, sameCompletion_iff.mp hsame]
  | false =>
    right
    have hne : completionClass sweep c ≠ completionClass sweep first := fun heq => by
      rw [sameCompletion_iff.mpr heq] at hsame
      cases hsame
    have htaken : ∀ d ∈ first :: rest.takeWhile (sameCompletion sweep first),
        completionClass sweep d = completionClass sweep first := by
      intro d hd
      rcases mem_cons.mp hd with rfl | hd
      · rfl
      · exact sameCompletion_iff.mp (mem_takeWhile_imp hd)
    have hsplit : first :: rest = first :: rest.takeWhile (sameCompletion sweep first) ++
        rest.dropWhile (sameCompletion sweep first) := by
      rw [cons_append, takeWhile_append_dropWhile]
    rw [hsplit] at hc
    rcases mem_append.mp hc with hc | hc
    · exact absurd (htaken c hc) hne
    refine ⟨hc, ?_⟩
    conv_lhs => rw [hsplit]
    rw [classCount, countP_append, countP_eq_zero.mpr fun d hd hcd => ?_, Nat.zero_add]
    · rfl
    · rw [sameCompletion_iff, htaken d hd] at hcd
      exact hne hcd.symm

/-- What comes after the first group is not in it. -/
theorem rest_group {c : ℕ × ℕ} (hc : c ∈ rest.dropWhile (sameCompletion sweep first)) :
    c ∈ first :: rest ∧ classCount sweep (first :: rest) c =
      classCount sweep (rest.dropWhile (sameCompletion sweep first)) c := by
  have hmem : c ∈ first :: rest := mem_cons_of_mem _ ((dropWhile_sublist _).subset hc)
  rcases group_cases hmem with ⟨hsame, -⟩ | ⟨-, hcount⟩
  · rw [(first_group hsorted).2 c hc] at hsame
    cases hsame
  · exact ⟨hmem, hcount⟩

end Completions

/-- The backend position of a completion. -/
def completionBackend (sweep : SweepInputs) (c : ℕ × ℕ) : ℕ :=
  sweep.backendIndex (sweep.interval c.2)

/-- The peaks of a finished loop over the completions in `l`. -/
structure PeaksOf (inputs : DeviceRateInputs) (sweep : SweepInputs) (l : List (ℕ × ℕ))
    (peaks peaks' : ℕ → UInt32) : Prop where
  le_capacity : ∀ c ∈ l, classCount sweep l c ≤
    (inputs.completionCapacity (completionBackend sweep c)).toNat
  le_peak : ∀ c ∈ l, classCount sweep l c ≤ (peaks' (completionBackend sweep c)).toNat
  mono : ∀ m, (peaks m).toNat ≤ (peaks' m).toNat
  reached : ∀ m, (peaks' m).toNat = (peaks m).toNat ∨
    ∃ c ∈ l, completionBackend sweep c = m ∧ (peaks' m).toNat = classCount sweep l c

/-- Completions of one class are on one backend. -/
theorem completionBackend_eq {c d : ℕ × ℕ} (h : sameCompletion sweep c d = true) :
    completionBackend sweep d = completionBackend sweep c := by
  simp only [sameCompletion, Bool.and_eq_true, decide_eq_true_eq] at h
  rw [completionBackend, completionBackend, SweepInputs.backendIndex, SweepInputs.backendIndex, h.2]

theorem toNat_classCount {l : List (ℕ × ℕ)} (hlen : l.length < 2 ^ 32) (c : ℕ × ℕ) :
    (UInt32.ofNat (classCount sweep l c)).toNat = classCount sweep l c :=
  UInt32.toNat_ofNat_of_lt' (countP_le_length.trans_lt hlen)

/-- One group and then the rest. -/
theorem PeaksOf.cons {first : ℕ × ℕ} {rest : List (ℕ × ℕ)}
    {peaks peaks' : ℕ → UInt32} (hsorted : (first :: rest).Pairwise fun c d =>
      completionClass sweep c ≤ completionClass sweep d) (hlen : (first :: rest).length < 2 ^ 32)
    (hfits : classCount sweep (first :: rest) first ≤
      (inputs.completionCapacity (completionBackend sweep first)).toNat)
    (h : inputs.PeaksOf sweep (rest.dropWhile (sameCompletion sweep first))
      (update peaks (completionBackend sweep first)
        (max (peaks (completionBackend sweep first))
          (UInt32.ofNat (classCount sweep (first :: rest) first)))) peaks') :
    inputs.PeaksOf sweep (first :: rest) peaks peaks' := by
  have hfirst : max (peaks (completionBackend sweep first)).toNat
      (classCount sweep (first :: rest) first) ≤
        (peaks' (completionBackend sweep first)).toNat := by
    have := h.mono (completionBackend sweep first)
    rwa [update_self, UInt32.toNat_max, toNat_classCount hlen] at this
  have hcounts (bound : ℕ → UInt32) (hgroup : classCount sweep (first :: rest) first ≤
      (bound (completionBackend sweep first)).toNat)
      (hothers : ∀ c ∈ rest.dropWhile (sameCompletion sweep first),
        classCount sweep (rest.dropWhile (sameCompletion sweep first)) c ≤
          (bound (completionBackend sweep c)).toNat) : ∀ c ∈ first :: rest,
      classCount sweep (first :: rest) c ≤ (bound (completionBackend sweep c)).toNat := by
    intro c hc
    rcases group_cases hc with ⟨hsame, hcount⟩ | ⟨hrest, hcount⟩
    · rwa [hcount, completionBackend_eq hsame]
    · rw [hcount]
      exact hothers c hrest
  refine ⟨hcounts _ hfits h.le_capacity, hcounts _ ((le_max_right _ _).trans hfirst) h.le_peak,
    fun m => ?_, fun m => ?_⟩
  · by_cases hm : m = completionBackend sweep first
    · rw [hm]
      exact (le_max_left _ _).trans hfirst
    · have := h.mono m
      rwa [update_of_ne hm] at this
  · rcases h.reached m with heq | ⟨c, hc, hm, heq⟩
    · by_cases hm : m = completionBackend sweep first
      · subst hm
        rw [update_self, UInt32.toNat_max, toNat_classCount hlen] at heq
        rcases max_choice (peaks (completionBackend sweep first)).toNat
          (classCount sweep (first :: rest) first) with hmax | hmax
        · exact Or.inl (heq.trans hmax)
        · exact Or.inr ⟨first, mem_cons_self, rfl, heq.trans hmax⟩
      · rw [update_of_ne hm] at heq
        exact Or.inl heq
    · obtain ⟨hmem, hcount⟩ := rest_group hsorted hc
      exact Or.inr ⟨c, hmem, hm, heq.trans hcount.symm⟩

theorem PeaksOf.nil {peaks : ℕ → UInt32} : inputs.PeaksOf sweep [] peaks peaks :=
  ⟨by simp, by simp, fun _ => le_rfl, fun _ => Or.inl rfl⟩

/-- The loop over the groups; each turn takes at least one completion. -/
theorem checkCompletions_spec (inputs : DeviceRateInputs) (sweep : SweepInputs) (fuel : ℕ) :
    ∀ (l : List (ℕ × ℕ)) (peaks : ℕ → UInt32), l.length ≤ fuel → l.length < 2 ^ 32 →
      (l.Pairwise fun c d => completionClass sweep c ≤ completionClass sweep d) →
      (∀ peaks', inputs.checkCompletions sweep fuel peaks l = .ok peaks' →
        inputs.PeaksOf sweep l peaks peaks') ∧
      ∀ d, inputs.checkCompletions sweep fuel peaks l = .error d →
        d.status ≠ .ok ∧ CompletionRejection d ∧ ∃ c ∈ l, d.phase = (sweep.interval c.2).phase ∧
        (inputs.completionCapacity (completionBackend sweep c)).toNat < classCount sweep l c := by
  induction fuel with
  | zero =>
    intro l peaks hfuel _ _
    obtain rfl : l = [] := length_eq_zero_iff.mp (Nat.le_zero.mp hfuel)
    exact ⟨fun peaks' hok => Except.ok.inj hok ▸ .nil, nofun⟩
  | succ fuel ih =>
    intro l peaks hfuel hlen hsorted
    cases l with
    | nil => exact ⟨fun peaks' hok => Except.ok.inj hok ▸ .nil, nofun⟩
    | cons first rest =>
      have hshort : (rest.dropWhile (sameCompletion sweep first)).length ≤ rest.length :=
        (dropWhile_sublist _).length_le
      rw [length_cons] at hfuel
      have hrest := ih (rest.dropWhile (sameCompletion sweep first))
        (update peaks (completionBackend sweep first)
          (max (peaks (completionBackend sweep first))
            (UInt32.ofNat (classCount sweep (first :: rest) first)))) (by omega)
        (hshort.trans_lt (by rw [length_cons] at hlen; omega))
        ((pairwise_cons.mp hsorted).2.sublist (dropWhile_sublist _))
      have hgroup := (first_group hsorted).1
      rw [checkCompletions, hgroup]
      refine ⟨fun peaks' hok => ?_, fun d herror => ?_⟩
      · rw [reject_bind_eq_ok] at hok
        obtain ⟨hfits, hok⟩ := hok
        rw [gt_iff_lt, UInt32.not_lt, UInt32.le_iff_toNat_le, toNat_classCount hlen] at hfits
        exact PeaksOf.cons hsorted hlen hfits (hrest.1 peaks' hok)
      · rcases reject_bind_eq_error.mp herror with ⟨hexceeds, rfl⟩ | ⟨-, herror⟩
        · rw [gt_iff_lt, UInt32.lt_iff_toNat_lt, toNat_classCount hlen] at hexceeds
          exact ⟨nofun, rfl, first, mem_cons_self, rfl, hexceeds⟩
        · obtain ⟨hstatus, hmessage, c, hc, hphase, hlt⟩ := hrest.2 d herror
          obtain ⟨hmem, hcount⟩ := rest_group hsorted hc
          exact ⟨hstatus, hmessage, c, hmem, hphase, hlt.trans_eq hcount.symm⟩

end DeviceRateInputs

end RtRuntime


