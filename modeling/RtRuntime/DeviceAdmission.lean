import RtRuntime.DeviceSweep

/-!
# Device-rate admission

What the sweep of one supercycle says about the endless repetition of the device releases:
an admitted plan stays within every capacity at every instant, its reported peaks are the
maxima over all instants, and a capacity is reported as exceeded only if some instant of
the repetition exceeds it.
-/

namespace RtRuntime

open List

namespace DeviceRateInputs

/-! ## What admission promises -/

/-- The in-flight capacities of a phase, of its backend or of the runtime are exceeded at
instant `t`. -/
def InFlightExceeded (inputs : DeviceRateInputs) (h : inputs.Drains) (phase : PhaseHandle)
    (t : ℕ) : Prop :=
  (∃ binding ∈ inputs.bindings, binding.phase = phase ∧
    binding.maximumInFlight.toNat < (inputs.deviceSchedule h).openAt (ofPhase phase) t) ∨
  (∃ source ∈ inputs.backends, inputs.backendOf phase = some source.backend ∧
    source.capabilities.maxInFlightBatches.toNat <
      (inputs.deviceSchedule h).openAt (inputs.onBackend source.backend) t) ∨
  inputs.runtimeOutstandingCapacity.toNat < (inputs.deviceSchedule h).openAt (fun _ => true) t

/-- The completions a backend may report at one instant. -/
def batchCapacity (inputs : DeviceRateInputs) (source : DeviceRateBackendSource) : ℕ :=
  min inputs.runtimeCompletionBatchCapacity.toNat
    source.capabilities.completionBatchCapacity.toNat

/-- More releases of the backend of a phase complete at instant `t` than fit a batch. -/
def CompletionsExceeded (inputs : DeviceRateInputs) (h : inputs.Drains) (phase : PhaseHandle)
    (t : ℕ) : Prop :=
  ∃ source ∈ inputs.backends, inputs.backendOf phase = some source.backend ∧
    inputs.batchCapacity source <
      (inputs.deviceSchedule h).stopsAt (inputs.onBackend source.backend) t

/-- The repeated schedule stays within all capacities, and the plan reports its maxima. -/
structure Admitted (inputs : DeviceRateInputs) (h : inputs.Drains) (plan : CompiledDeviceRatePlan) :
    Prop where
  /-- with a device binding at all, every mandatory device release is scheduled -/
  complete : inputs.bindings ≠ [] → inputs.mandatoryDevice =
    inputs.ratePlan.releases.zipIdx.filter fun entry =>
      entry.1.phaseKind = .device && !entry.1.optional
  phase_le : ∀ binding ∈ inputs.bindings, ∀ t,
    (inputs.deviceSchedule h).openAt (ofPhase binding.phase) t ≤ binding.maximumInFlight.toNat
  backend_le : ∀ source ∈ inputs.backends, ∀ t,
    (inputs.deviceSchedule h).openAt (inputs.onBackend source.backend) t ≤
      source.capabilities.maxInFlightBatches.toNat
  runtime_le : ∀ t, (inputs.deviceSchedule h).openAt (fun _ => true) t ≤
    inputs.runtimeOutstandingCapacity.toNat
  completions_le : ∀ source ∈ inputs.backends, ∀ t,
    (inputs.deviceSchedule h).stopsAt (inputs.onBackend source.backend) t ≤
      inputs.batchCapacity source
  /-- every binding and its backend are reported -/
  reported : ∀ binding ∈ inputs.bindings,
    (∃ report ∈ plan.admissionPhases, report.phase = binding.phase) ∧
      ∃ report ∈ plan.admissionBackends, inputs.backendOf binding.phase = some report.backend
  phase_peak : ∀ report ∈ plan.admissionPhases,
    IsGreatest (Set.range ((inputs.deviceSchedule h).openAt (ofPhase report.phase)))
      report.peakInFlight.toNat
  backend_peak : ∀ report ∈ plan.admissionBackends,
    IsGreatest (Set.range ((inputs.deviceSchedule h).openAt (inputs.onBackend report.backend)))
      report.peakInFlight.toNat
  completion_peak : ∀ report ∈ plan.admissionBackends,
    IsGreatest (Set.range ((inputs.deviceSchedule h).stopsAt (inputs.onBackend report.backend)))
      report.peakCompletions.toNat
  runtime_peak : IsGreatest (Set.range ((inputs.deviceSchedule h).openAt fun _ => true))
    plan.report.peakGlobalInFlight.toNat

variable {inputs : DeviceRateInputs}

/-! ## From intervals to records -/

namespace Gathered

variable {sweep : SweepInputs} {collected : IntervalState} (h : inputs.Gathered sweep collected)

/-- The intervals of a compiled phase are the releases of its binding. -/
theorem openAt_phase {n : ℕ} {binding : DeviceRateBindingSpec} {phase : CompiledDeviceRatePhase}
    (hcompiled : inputs.CompiledFrom sweep.inventories sweep.tables n binding phase) :
    (inputs.deviceSchedule h.drains).openAt (ofPhase binding.phase) =
      h.schedule.openAt fun k => sweep.phaseIndex (sweep.interval k) = n := by
  funext t
  rw [h.renames.openAt]
  refine CyclicSchedule.openAt_congr (fun k hk => ?_) t
  rw [ofPhase, decide_eq_decide]
  exact (h.phaseIndex_eq_iff (h.interval_bounds hk).1 hcompiled).symm

variable {source : DeviceRateBackendSource}

section

variable {m : ℕ} (hm : inputs.backends[m]? = some source)
include hm

/-- The intervals of a backend are the releases on it. -/
theorem onBackend_eq {k : ℕ} (hk : k ∈ h.schedule.items) :
    inputs.onBackend source.backend (inputs.recordOf k) =
      decide (sweep.backendIndex (sweep.interval k) = m) := by
  have hget := (h.interval_bounds hk).1
  rw [onBackend, h.backendOf_record hget, decide_eq_decide, Option.some.injEq]
  exact (h.backendIndex_eq_iff hget hm).symm

theorem openAt_backend : (inputs.deviceSchedule h.drains).openAt (inputs.onBackend source.backend) =
      h.schedule.openAt fun k => sweep.backendIndex (sweep.interval k) = m := by
  funext t
  rw [h.renames.openAt]
  exact CyclicSchedule.openAt_congr (fun k hk => h.onBackend_eq hm hk) t

theorem stopsAt_backend :
    (inputs.deviceSchedule h.drains).stopsAt (inputs.onBackend source.backend) =
      h.schedule.stopsAt fun k => sweep.backendIndex (sweep.interval k) = m := by
  funext t
  rw [h.renames.stopsAt]
  exact CyclicSchedule.stopsAt_congr (fun k hk => h.onBackend_eq hm hk) t

end

theorem openAt_runtime : (inputs.deviceSchedule h.drains).openAt (fun _ => true) =
    h.schedule.openAt fun _ => true := by
  funext t
  exact h.renames.openAt _ t

/-- An exceeded capacity of the intervals is one of the releases. -/
theorem inFlightExceeded {k t : ℕ} {interval : DeviceRateAdmissionInterval}
    (hk : sweep.intervals[k]? = some interval) (hex : h.ExceededAt interval t) :
    inputs.InFlightExceeded h.drains interval.phase t := by
  obtain ⟨n, binding, phase, hbinding, hcompiled, hphase, hindex, -⟩ := h.interval_source hk
  have hiphase : interval.phase = binding.phase := (h.intervalOf hk).2.phase.trans hphase
  rcases hex with hlt | hlt | hlt
  · refine Or.inl ⟨binding, hbinding, hiphase.symm, ?_⟩
    rw [hiphase, h.openAt_phase hcompiled, ← hcompiled.maximum]
    rw [hindex, SweepInputs.phaseLimit, getD_eq_getElem?_getD, hcompiled.record] at hlt
    exact hlt
  · obtain ⟨source, hsource, heq⟩ := (h.backendAt hk).source
    refine Or.inr (Or.inl ⟨source, mem_of_getElem? hsource, ?_, ?_⟩)
    · rw [hiphase, ← hphase, h.backendOf_record hk, heq]
    · rw [h.openAt_backend hsource]
      rw [batchLimit, getD_eq_getElem?_getD, hsource] at hlt
      exact hlt
  · exact Or.inr (Or.inr (by rwa [h.openAt_runtime]))

/-! ## Completions -/

theorem mem_completions {c : ℕ × ℕ} : c ∈ sortCompletions sweep collected.completions ↔
    c.2 ∈ h.schedule.items ∧ c.1 = h.schedule.stop c.2 % h.schedule.period := by
  rw [sortCompletions, (perm_insertionSort _ _).mem_iff, h.loop.completions, ← h.intervals_eq,
    mem_map]
  have hstop : ∀ e ∈ mandatoryIntervals sweep.intervals,
      e.1.completionDeadlineNs.toNat % h.schedule.period =
        h.schedule.stop e.2 % h.schedule.period := fun e he => by
    change _ = (sweep.interval e.2).completionDeadlineNs.toNat % _
    rw [SweepInputs.interval_eq (mem_mandatoryIntervals.mp he).1]
  refine ⟨?_, fun ⟨hitem, htime⟩ => ?_⟩
  · rintro ⟨e, he, rfl⟩
    exact ⟨mem_map_of_mem he, hstop e he⟩
  · obtain ⟨e, he, heq⟩ := mem_map.mp hitem
    refine ⟨e, he, Prod.ext ?_ heq⟩
    rw [htime, ← heq]
    exact hstop e he

/-- The class of a completion has all stops of its backend at its offset. -/
theorem classCount_eq {c : ℕ × ℕ} (hc : c ∈ sortCompletions sweep collected.completions) :
    classCount sweep (sortCompletions sweep collected.completions) c =
      h.schedule.stopsSteady
        (fun k => sweep.backendIndex (sweep.interval k) = completionBackend sweep c) c.1 := by
  obtain ⟨hitem, -⟩ := h.mem_completions.mp hc
  obtain ⟨source, hsource, hbackend⟩ := (h.backendAt (h.interval_bounds hitem).1).source
  have hstops : (h.schedule.stopsSteady
      (fun k => sweep.backendIndex (sweep.interval k) = completionBackend sweep c) c.1) =
      ((mandatoryIntervals sweep.intervals).map (·.2)).countP fun k =>
        decide (sweep.backendIndex (sweep.interval k) = completionBackend sweep c) &&
          decide ((sweep.interval k).completionDeadlineNs.toNat %
            inputs.ratePlan.supercycleNs.toNat = c.1) := rfl
  rw [classCount, sortCompletions, (perm_insertionSort _ _).countP_eq, h.loop.completions,
    ← h.intervals_eq, hstops, countP_map, countP_map]
  refine countP_congr fun e he => ?_
  have hget := (mem_mandatoryIntervals.mp he).1
  have hinterval := SweepInputs.interval_eq hget
  have hsame := h.backendIndex_eq_iff hget hsource
  simp only [Function.comp, sameCompletion, completionOf, hinterval, Bool.and_eq_true,
    decide_eq_true_eq, completionBackend, hsame, ← hbackend]
  constructor
  · rintro ⟨h1, h2⟩
    exact ⟨h2.symm, (of_decide_eq_true h1).symm⟩
  · rintro ⟨h1, h2⟩
    exact ⟨decide_eq_true h2.symm, h1.symm⟩

include h in
theorem length_completions_lt : (sortCompletions sweep collected.completions).length < 2 ^ 32 := by
  rw [sortCompletions, (perm_insertionSort _ _).length_eq, h.loop.completions,
    length_map, ← h.intervals_eq]
  have hlen := h.length_intervals_lt
  have hle : (mandatoryIntervals sweep.intervals).length ≤ sweep.intervals.length := by
    refine (length_filter_le _ _).trans ?_
    rw [length_zipIdx]
  omega

/-- What stops at an offset of the period stops at an instant of the repetition. -/
theorem classCount_eq_stopsAt {c : ℕ × ℕ}
    (hc : c ∈ sortCompletions sweep collected.completions) :
    classCount sweep (sortCompletions sweep collected.completions) c = h.schedule.stopsAt
      (fun k => sweep.backendIndex (sweep.interval k) = completionBackend sweep c)
      (h.schedule.period + c.1) := by
  have htime : c.1 < h.schedule.period := by
    rw [(h.mem_completions.mp hc).2]
    exact Nat.mod_lt _ h.period_pos
  rw [h.classCount_eq hc, CyclicSchedule.stopsAt_eq_steady htime]

/-- Some completion has the class of any instant at which the backend completes anything. -/
theorem stopsAt_le {m t bound : ℕ}
    (hbound : ∀ c ∈ sortCompletions sweep collected.completions, completionBackend sweep c = m →
      classCount sweep (sortCompletions sweep collected.completions) c ≤ bound) :
    h.schedule.stopsAt (fun k => sweep.backendIndex (sweep.interval k) = m) t ≤ bound := by
  refine (CyclicSchedule.stopsAt_le t h.period_pos).trans ?_
  rcases Nat.eq_zero_or_pos (h.schedule.stopsSteady
    (fun k => sweep.backendIndex (sweep.interval k) = m) (t % h.schedule.period)) with hzero | hpos
  · rw [hzero]
    exact Nat.zero_le _
  · obtain ⟨k, hk, hsel⟩ := countP_pos_iff.mp hpos
    rw [Bool.and_eq_true, decide_eq_true_eq, decide_eq_true_eq] at hsel
    have hc : (t % h.schedule.period, k) ∈ sortCompletions sweep collected.completions :=
      h.mem_completions.mpr ⟨hk, hsel.2.symm⟩
    have hle := hbound _ hc hsel.1
    rw [h.classCount_eq hc] at hle
    simp only [completionBackend, hsel.1] at hle
    exact hle

variable {peaks : ℕ → UInt32}

theorem isGreatest_completions
    (hp : inputs.PeaksOf sweep (sortCompletions sweep collected.completions) (fun _ => 0) peaks)
    (m : ℕ) : IsGreatest (Set.range (h.schedule.stopsAt
    fun k => sweep.backendIndex (sweep.interval k) = m)) (peaks m).toNat := by
  have hle : ∀ t, h.schedule.stopsAt (fun k => sweep.backendIndex (sweep.interval k) = m) t ≤
      (peaks m).toNat := by
    intro t
    refine h.stopsAt_le fun c hc hm => ?_
    rw [← hm]
    exact hp.le_peak c hc
  refine ⟨?_, ?_⟩
  · rcases hp.reached m with hzero | ⟨c, hc, rfl, hcount⟩
    · have h0 := hle 0
      rw [hzero] at h0 ⊢
      exact ⟨0, Nat.le_zero.mp h0⟩
    · exact ⟨h.schedule.period + c.1, by rw [hcount, h.classCount_eq_stopsAt hc]⟩
  · rintro _ ⟨t, rfl⟩
    exact hle t

/-! ## The outcome of the admission -/

/-- The counters return to their start. -/
theorem balanced {demand : Demand} {final : SweepState}
    (hcarry : sweep.intervals.foldlM (inputs.countCarry sweep) {} = .ok demand)
    (hs : h.Sweeps (sortEvents collected.events) final) :
    inputs.balanced sweep demand final.demand = true := by
  have hc := h.countsCarry [] (by simp) hcarry
  have hphase : ∀ n, final.demand.phase n = demand.phase n := fun n => UInt32.toNat_inj.mp (by
    rw [(hs.phase n).counter_eq, h.isSweep.demand_all, hc.phase, h.carriedIn_eq])
  have hbackend : ∀ m, final.demand.backend m = demand.backend m := fun m =>
    UInt32.toNat_inj.mp (by
      rw [(hs.backend m).counter_eq, h.isSweep.demand_all, hc.backend, h.carriedIn_eq])
  have hglobal : final.demand.global = demand.global := UInt32.toNat_inj.mp (by
    rw [hs.global.counter_eq, h.isSweep.demand_all, hc.global, h.carriedIn_eq])
  simp [DeviceRateInputs.balanced, hphase, hbackend, hglobal]

/-- A failed admission names a capacity that is exceeded. -/
theorem admitIntervals_error {d : DeviceRateDiagnostic}
    (hd : inputs.admitIntervals sweep collected = .error d) :
    d.status ≠ .ok ∧ ((InFlightRejection d ∧ ∃ t, inputs.InFlightExceeded h.drains d.phase t) ∨
      (CompletionRejection d ∧ ∃ t, inputs.CompletionsExceeded h.drains d.phase t)) := by
  rw [admitIntervals, bind_eq_error, ← h.intervals_eq] at hd
  rcases hd with hd | ⟨demand, hcarry, hd⟩
  · obtain ⟨hstatus, hmessage, interval, hmem, hphase, t, hex⟩ := h.countCarry_error hd
    obtain ⟨k, hk⟩ := mem_iff_getElem?.mp hmem
    exact ⟨hstatus, Or.inl ⟨hmessage, t, hphase ▸ h.inFlightExceeded hk hex⟩⟩
  rw [bind_eq_error] at hd
  rcases hd with hd | ⟨final, hsweep, hd⟩
  · obtain ⟨hstatus, hmessage, k, hk, hphase, t, hex⟩ := h.sweepStep_error hcarry hd
    exact ⟨hstatus, Or.inl ⟨hmessage, t,
      hphase ▸ h.inFlightExceeded (h.interval_bounds hk).1 hex⟩⟩
  have hs : h.Sweeps (sortEvents collected.events) final :=
    .all hcarry (append_nil _).symm hsweep
  rcases reject_bind_eq_error.mp hd with ⟨hbad, -⟩ | ⟨-, hd⟩
  · rw [h.balanced hcarry hs] at hbad
    cases hbad
  rw [bind_eq_error] at hd
  rcases hd with hd | ⟨peaks, -, hd⟩
  swap
  · cases hd
  obtain ⟨-, herror⟩ := checkCompletions_spec inputs sweep
    (sortCompletions sweep collected.completions).length
    (sortCompletions sweep collected.completions) (fun _ => 0) le_rfl h.length_completions_lt
    (sorted_completions sweep _)
  obtain ⟨hstatus, hmessage, c, hc, hphase, hlt⟩ := herror d hd
  have hget := (h.interval_bounds (h.mem_completions.mp hc).1).1
  obtain ⟨source, hsource, hbackend⟩ := (h.backendAt hget).source
  refine ⟨hstatus, Or.inr ⟨hmessage, h.schedule.period + c.1, source,
    mem_of_getElem? hsource, ?_, ?_⟩⟩
  · rw [hphase, (h.intervalOf hget).2.phase, h.backendOf_record hget, hbackend]
  · rw [h.stopsAt_backend hsource, batchCapacity, ← UInt32.toNat_min]
    rw [h.classCount_eq_stopsAt hc, completionCapacity, completionBackend,
      getD_eq_getElem?_getD, hsource] at hlt
    exact hlt

/-- A successful admission is that of the repeated schedule. -/
theorem admitIntervals_ok {admission : Admission}
    (hok : inputs.admitIntervals sweep collected = .ok admission) :
    h.Sweeps (sortEvents collected.events) admission.final ∧
      inputs.PeaksOf sweep (sortCompletions sweep collected.completions) (fun _ => 0)
        admission.completionPeak := by
  simp only [admitIntervals, bind_eq_ok, reject_eq_ok, Unique.exists_iff, ← h.intervals_eq] at hok
  obtain ⟨demand, hcarry, final, hsweep, -, peaks, hpeaks, hok⟩ := hok
  cases hok
  refine ⟨.all hcarry (append_nil _).symm hsweep, ?_⟩
  exact (checkCompletions_spec _ _ _ _ _ le_rfl h.length_completions_lt (sorted_completions sweep _)).1
    peaks hpeaks

include h in
theorem mem_admissionPhases {report : DeviceRateAdmissionPhase} :
    report ∈ admissionPhases sweep.tables peaks → ∃ n binding phase,
      inputs.CompiledFrom sweep.inventories sweep.tables n binding phase ∧
      report.phase = binding.phase ∧ report.peakInFlight = peaks n := by
  intro hreport
  obtain ⟨⟨phase, n⟩, hmem, rfl⟩ := mem_map.mp hreport
  obtain ⟨binding, -, hcompiled⟩ := h.tables.phases n phase (mem_zipIdx_iff_getElem?.mp hmem)
  exact ⟨n, binding, phase, hcompiled, hcompiled.phase_eq, rfl⟩

omit h in
theorem mem_admissionBackends {tables : PhaseTables} {completions : ℕ → UInt32}
    {report : DeviceRateAdmissionBackend} :
    report ∈ inputs.admissionBackends tables peaks completions → ∃ m source,
      inputs.backends[m]? = some source ∧ report.backend = source.backend ∧
      report.peakInFlight = peaks m ∧ report.peakCompletions = completions m := by
  intro hreport
  obtain ⟨⟨source, m⟩, hmem, rfl⟩ := mem_map.mp hreport
  exact ⟨m, source, mem_zipIdx_iff_getElem?.mp (mem_filter.mp hmem).1, rfl, rfl, rfl⟩

/-- The reports of an admitted plan. -/
theorem admitted {admission : Admission} {plan : CompiledDeviceRatePlan}
    (hok : inputs.admitIntervals sweep collected = .ok admission)
    (hphases : plan.admissionPhases = admissionPhases sweep.tables admission.final.phasePeak)
    (hbackends : plan.admissionBackends = inputs.admissionBackends sweep.tables
      admission.final.backendPeak admission.completionPeak)
    (hglobal : plan.report.peakGlobalInFlight = admission.final.globalPeak) :
    inputs.Admitted h.drains plan := by
  obtain ⟨hs, hp⟩ := h.admitIntervals_ok hok
  have hgreatest := fun n => (hs.phase n).isGreatest h.isSweep h.period_pos
  have hgreatestBackend := fun m => (hs.backend m).isGreatest h.isSweep h.period_pos
  have hgreatestGlobal := hs.global.isGreatest h.isSweep h.period_pos
  refine ⟨fun _ => h.mandatoryDevice_complete, fun binding hbinding t => ?_,
    fun source hsource t => ?_, fun t => ?_, fun source hsource t => ?_, fun binding hbinding => ?_,
    fun report hreport => ?_, fun report hreport => ?_, fun report hreport => ?_, ?_⟩
  · obtain ⟨n, phase, hcompiled⟩ := h.tables.compiled binding hbinding
    have hle := UInt32.le_iff_toNat_le.mp (hs.within.phase_le n)
    rw [SweepInputs.phaseLimit, getD_eq_getElem?_getD, hcompiled.record] at hle
    rw [h.openAt_phase hcompiled, ← hcompiled.maximum]
    exact ((hgreatest n).2 ⟨t, rfl⟩).trans hle
  · obtain ⟨m, hm⟩ := mem_iff_getElem?.mp hsource
    have hle := UInt32.le_iff_toNat_le.mp (hs.within.backend_le m)
    rw [batchLimit, getD_eq_getElem?_getD, hm] at hle
    rw [h.openAt_backend hm]
    exact ((hgreatestBackend m).2 ⟨t, rfl⟩).trans hle
  · rw [h.openAt_runtime]
    exact (hgreatestGlobal.2 ⟨t, rfl⟩).trans (UInt32.le_iff_toNat_le.mp hs.within.global_le)
  · obtain ⟨m, hm⟩ := mem_iff_getElem?.mp hsource
    rw [h.stopsAt_backend hm]
    refine h.stopsAt_le fun c hc hcm => ?_
    have hle := hp.le_capacity c hc
    rw [hcm, completionCapacity, getD_eq_getElem?_getD, hm, UInt32.toNat_min] at hle
    exact hle
  · obtain ⟨n, phase, hcompiled⟩ := h.tables.compiled binding hbinding
    obtain ⟨m, hm, hused⟩ := hcompiled.backend
    obtain ⟨source, hsource, hbackend⟩ :=
      (backendAt_of_source h.tables.inventories_eq hm).source
    rw [hphases, hbackends, h.backendOf_binding hcompiled]
    refine ⟨⟨_, mem_map_of_mem (a := (phase, n))
      (mem_zipIdx_iff_getElem?.mpr hcompiled.record), hcompiled.phase_eq⟩,
      ⟨_, mem_map_of_mem (a := (source, m)) (mem_filter.mpr
        ⟨mem_zipIdx_iff_getElem?.mpr hsource, hused⟩), ?_⟩⟩
    rw [hbackend]
  · rw [hphases] at hreport
    obtain ⟨n, binding, phase, hcompiled, hphase, hpeak⟩ := h.mem_admissionPhases hreport
    rw [hphase, h.openAt_phase hcompiled, hpeak]
    exact hgreatest n
  · rw [hbackends] at hreport
    obtain ⟨m, source, hm, hbackend, hpeak, -⟩ := mem_admissionBackends hreport
    rw [hbackend, h.openAt_backend hm, hpeak]
    exact hgreatestBackend m
  · rw [hbackends] at hreport
    obtain ⟨m, source, hm, hbackend, -, hpeak⟩ := mem_admissionBackends hreport
    rw [hbackend, h.stopsAt_backend hm, hpeak]
    exact h.isGreatest_completions hp m
  · rw [h.openAt_runtime, hglobal]
    exact hgreatestGlobal

end Gathered

/-! ## The compiler -/

/-- A failure that has nothing to do with a capacity. -/
def Unrelated (d : DeviceRateDiagnostic) : Prop :=
  d.status ≠ .ok ∧ ¬ InFlightRejection d ∧ ¬ CompletionRejection d ∧ ¬ UnbalancedRejection d

theorem unrelated_of_message {d : DeviceRateDiagnostic} {m : String} (hstatus : d.status ≠ .ok)
    (hm : d.message = some m)
    (hne : m ∉ ["device-rate cyclic carry exceeds an in-flight capacity",
      "device-rate release exceeds an in-flight capacity",
      "device-rate poll boundary exceeds completion-batch capacity",
      "device-rate admission is not cyclically balanced"]) : Unrelated d := by
  simp only [mem_cons, not_mem_nil, or_false, not_or] at hne
  simp [Unrelated, InFlightRejection, CompletionRejection, UnbalancedRejection, hm, hstatus, hne]

theorem inventory_errors {α : Type} {accepts : α → Bool} {index : α → ℕ} {message : String}
    {sources : List α} (h : Unrelated (deviceFailure .invalidHandle message)) :
    ErrorsSatisfy Unrelated (inventory accepts index message sources) :=
  .foldlM fun _ _ _ => .check h (.ok _)

theorem inventories_errors : ErrorsSatisfy Unrelated inputs.inventories := by
  refine .bind (inventory_errors ?_) fun _ _ => .bind (inventory_errors ?_) fun _ _ =>
    .bind (inventory_errors ?_) fun _ _ => .bind (inventory_errors ?_) fun _ _ => .ok _
  all_goals exact unrelated_of_message nofun rfl (by decide)

variable {inventories : Inventories}

theorem compileTimelines_errors {phase : PhaseHandle} {backend : DeviceBackendHandle}
    {role : DeviceRateTimelineRole} {message : String} {points : ℕ → HalV2TimelinePoint} {count : ℕ}
    (h : Unrelated (deviceFailureOf .invalidConfig message phase)) :
    ErrorsSatisfy Unrelated
      (inputs.compileTimelines inventories phase backend role message points count) :=
  .mapM fun _ _ => .get h fun _ => .check h (.ok _)

theorem compileBinding_errors {tables : PhaseTables} {i : ℕ} :
    ErrorsSatisfy Unrelated (inputs.compileBinding inventories tables i) := by
  refine .get ?_ fun _ => .get ?_ fun _ => .get ?_ fun _ => .check ?_ (.get ?_ fun _ =>
    .check ?_ (.check ?_ (.bind (.foldlM fun _ _ _ => .bind (.foldlM fun _ _ _ =>
      .get ?_ fun _ => .get ?_ fun _ => .check ?_ (.ok _)) fun _ _ => .ok _) fun _ _ =>
    .check ?_ (.bind (compileTimelines_errors ?_) fun _ _ =>
      .bind (compileTimelines_errors ?_) fun _ _ => .ok _))))
  all_goals exact unrelated_of_message nofun rfl (by decide)

theorem checkTimelines_errors {tables : PhaseTables} :
    ErrorsSatisfy Unrelated (inputs.checkTimelines inventories tables) := by
  refine .bind (.foldlM fun _ _ _ => .foldlM fun _ _ _ => .get ?_ fun _ => .check ?_ (.ok _))
    fun _ _ => .bind (.foldlM fun _ _ _ => .foldlM fun _ _ _ => .get ?_ fun _ => ?_)
    fun _ _ => .reject fun _ => ?_
  case refine_4 =>
    split
    · exact .check (unrelated_of_message nofun rfl (by decide)) (.ok _)
    · exact .check (unrelated_of_message nofun rfl (by decide)) (.ok _)
  all_goals exact unrelated_of_message nofun rfl (by decide)

theorem compileTables_errors : ErrorsSatisfy Unrelated inputs.compileTables := by
  refine .check (unrelated_of_message nofun rfl (by decide)) (.bind inventories_errors fun _ _ =>
    .bind (.foldlM fun _ _ _ => compileBinding_errors) fun _ _ =>
    .bind checkTimelines_errors fun _ _ => .ok _)

theorem collectIntervals_errors {tables : PhaseTables} :
    ErrorsSatisfy Unrelated (inputs.collectIntervals inventories tables) := by
  refine .foldlM fun _ _ _ => .ite (.ok _) (.get ?_ fun _ => .get ?_ fun _ => .check ?_
    (.ite (.ok _) (.ok _)))
  all_goals exact unrelated_of_message nofun rfl (by decide)

/-- The tables and intervals with which the admission begins. -/
theorem gathered {tables : Inventories × PhaseTables} {collected : IntervalState}
    (htimeline : IsTimeline inputs.ratePlan) (htables : inputs.compileTables = .ok tables)
    (hcollected : inputs.collectIntervals tables.1 tables.2 = .ok collected) :
    inputs.Gathered ⟨tables.1, tables.2, collected.intervals⟩ collected :=
  ⟨htimeline, compileTables_isTables htables, collectIntervals_collected hcollected, rfl⟩

/-- A compiled plan is admitted. -/
theorem compilePlan_admitted {plan : CompiledDeviceRatePlan} (htimeline : IsTimeline inputs.ratePlan)
    (hok : inputs.compilePlan = .ok plan) : ∃ h : inputs.Drains, inputs.Admitted h plan := by
  simp only [compilePlan, bind_eq_ok] at hok
  obtain ⟨tables, htables, collected, hcollected, admission, hadmission, hok⟩ := hok
  cases hok
  have hg := gathered htimeline htables hcollected
  exact ⟨hg.drains, hg.admitted hadmission rfl rfl rfl⟩

/-- A failed compilation reports a capacity only if it is exceeded. -/
theorem compilePlan_errors
    (htimeline : ∀ tables, inputs.compileTables = .ok tables → IsTimeline inputs.ratePlan) :
    ErrorsSatisfy (fun d => d.status ≠ .ok ∧ (Unrelated d ∨ ∃ h : inputs.Drains,
      (InFlightRejection d ∧ ∃ t, inputs.InFlightExceeded h d.phase t) ∨
      (CompletionRejection d ∧ ∃ t, inputs.CompletionsExceeded h d.phase t))) inputs.compilePlan := by
  refine .bind (fun d hd => ?_) fun tables htables => .bind (fun d hd => ?_) fun collected hc =>
    .bind (fun d hd => ?_) fun _ _ => .ok _
  · have hun := compileTables_errors d hd
    exact ⟨hun.1, Or.inl hun⟩
  · have hun := collectIntervals_errors d hd
    exact ⟨hun.1, Or.inl hun⟩
  · have hg := gathered (htimeline tables htables) htables hc
    obtain ⟨hstatus, hex⟩ := hg.admitIntervals_error hd
    exact ⟨hstatus, Or.inr ⟨hg.drains, hex⟩⟩

/-- Without bindings nothing is scheduled. -/
theorem admitted_nil (hnil : inputs.bindings = []) :
    ∃ h : inputs.Drains, inputs.Admitted h {} := by
  have hitems : inputs.mandatoryDevice = [] := by
    refine filter_eq_nil_iff.mpr fun entry _ => ?_
    simp [bindingOf, hnil]
  have hdrains : inputs.Drains := fun entry hentry => by
    rw [hitems] at hentry
    cases hentry
  have hempty : ∀ p, (inputs.deviceSchedule hdrains).items.countP p = 0 := fun p => by
    rw [show (inputs.deviceSchedule hdrains).items = [] from hitems, countP_nil]
  have hopen : ∀ q t, (inputs.deviceSchedule hdrains).openAt q t = 0 := fun q t =>
    Finset.sum_eq_zero fun c _ => hempty _
  have hstops : ∀ q t, (inputs.deviceSchedule hdrains).stopsAt q t = 0 := fun q t =>
    Finset.sum_eq_zero fun c _ => hempty _
  refine ⟨hdrains, fun hne => absurd hnil hne, ?_, ?_, ?_, ?_, by simp [hnil], by simp, by simp,
    by simp, ⟨0, hopen _ 0⟩, ?_⟩
  · exact fun _ _ t => (hopen _ t).le.trans (Nat.zero_le _)
  · exact fun _ _ t => (hopen _ t).le.trans (Nat.zero_le _)
  · exact fun t => (hopen _ t).le.trans (Nat.zero_le _)
  · exact fun _ _ t => (hstops _ t).le.trans (Nat.zero_le _)
  · rintro _ ⟨t, rfl⟩
    exact (hopen _ t).le

/-- The sweep never lowers a counter from zero. -/
def NoUnderflow (inputs : DeviceRateInputs) : Prop :=
  ∀ tables collected, inputs.compileTables = .ok tables →
    inputs.collectIntervals tables.1 tables.2 = .ok collected →
    let sweep : SweepInputs := ⟨tables.1, tables.2, collected.intervals⟩
    ∀ demand done event rest state,
      collected.intervals.foldlM (inputs.countCarry sweep) {} = .ok demand →
      sortEvents collected.events = done ++ event :: rest →
      done.foldlM (inputs.sweepStep sweep) (.begin demand) = .ok state → event.release = false →
      state.demand.phase (sweep.phaseIndex (sweep.interval event.item)) ≠ 0 ∧
        state.demand.backend (sweep.backendIndex (sweep.interval event.item)) ≠ 0 ∧
        state.demand.global ≠ 0

/-- Beyond its first check the compiler only meets plans with a supercycle. -/
theorem compileTables_supercycle {tables : Inventories × PhaseTables}
    (h : inputs.compileTables = .ok tables) : inputs.ratePlan.supercycleNs ≠ 0 := by
  rw [compileTables, reject_bind_eq_ok] at h
  exact fun hzero => h.1 (Or.inl hzero)

end DeviceRateInputs

open DeviceRateInputs in
/-- For a compiled timeline: an admitted plan keeps the endlessly repeated device releases
within all capacities and reports their exact maxima; the sweep lowers no counter below
zero and always ends balanced; a capacity is reported as exceeded only if some instant of
the repetition exceeds it. -/
theorem compileDeviceRatePlan_admission (inputs : DeviceRateInputs)
    (output : CompiledDeviceRatePlan) (phaseCount : ℕ) (compiledOrder : List PhaseHandle)
    (domains : List RateDomainSpec) (bindings : List RateBindingSpec) (previous : CompiledRatePlan)
    (htimeline : (compileRateTimeline inputs.graphOwner phaseCount compiledOrder domains
      bindings previous).status = .ok)
    (hplan : inputs.ratePlan = (compileRateTimeline inputs.graphOwner phaseCount compiledOrder
      domains bindings previous).output) :
    let result := compileDeviceRatePlan inputs output
    (result.status = .ok → ∃ h : inputs.Drains, inputs.Admitted h result.output) ∧
    inputs.NoUnderflow ∧
    (InFlightRejection result.diagnostic →
      ∃ (h : inputs.Drains) (t : ℕ), inputs.InFlightExceeded h result.diagnostic.phase t) ∧
    (CompletionRejection result.diagnostic →
      ∃ (h : inputs.Drains) (t : ℕ), inputs.CompletionsExceeded h result.diagnostic.phase t) ∧
    ¬ UnbalancedRejection result.diagnostic := by
  intro result
  have hcompiled : ∀ tables, inputs.compileTables = .ok tables → IsTimeline inputs.ratePlan := by
    intro tables htables
    rw [hplan]
    refine compileRateTimeline_isTimeline ?_ htimeline
    rintro rfl
    refine compileTables_supercycle htables ?_
    rw [hplan, compileRateTimeline_nil htimeline]
  have hunderflow : inputs.NoUnderflow := by
    intro tables collected htables hcollected sweep demand done event rest state hcarry hsplit
      hdone hrelease
    have hg := gathered (hcompiled tables htables) htables hcollected
    exact (Gathered.Sweeps.all (h := hg) hcarry hsplit hdone).no_underflow hsplit hrelease
  by_cases hnil : inputs.bindings = []
  · have hresult : result = ⟨.ok, {}, {}⟩ := by
      simp only [result, compileDeviceRatePlan, hnil, isEmpty_nil, if_true]
    rw [hresult]
    refine ⟨fun _ => admitted_nil hnil, hunderflow, ?_, ?_, ?_⟩
    all_goals simp [InFlightRejection, CompletionRejection, UnbalancedRejection]
  have hne : ¬ inputs.bindings.isEmpty = true := by simpa using hnil
  cases hc : inputs.compilePlan with
  | ok candidate =>
    have hresult : result = ⟨.ok, candidate, {}⟩ := by
      simp only [result, compileDeviceRatePlan, if_neg hne, hc]
    obtain ⟨tables, htables, -⟩ := bind_eq_ok.mp hc
    rw [hresult]
    refine ⟨fun _ => compilePlan_admitted (hcompiled tables htables) hc, hunderflow, ?_, ?_, ?_⟩
    all_goals simp [InFlightRejection, CompletionRejection, UnbalancedRejection]
  | error d =>
    have hresult : result = ⟨d.status, output, d⟩ := by
      simp only [result, compileDeviceRatePlan, if_neg hne, hc]
    rw [hresult]
    obtain ⟨hstatus, hun | ⟨h, ⟨hmessage, t, hex⟩ | ⟨hmessage, t, hex⟩⟩⟩ :=
      compilePlan_errors hcompiled d hc
    · exact ⟨fun hok => absurd hok hstatus, hunderflow, fun hd => absurd hd hun.2.1,
        fun hd => absurd hd hun.2.2.1, hun.2.2.2⟩
    · refine ⟨fun hok => absurd hok hstatus, hunderflow, fun _ => ⟨h, t, hex⟩, fun hd => ?_,
        fun hd => ?_⟩
      · rcases hmessage with hm | hm <;> simp [CompletionRejection, hm] at hd
      · rcases hmessage with hm | hm <;> simp [UnbalancedRejection, hm] at hd
    · rw [CompletionRejection] at hmessage
      refine ⟨fun hok => absurd hok hstatus, hunderflow, fun hd => ?_, fun _ => ⟨h, t, hex⟩,
        fun hd => ?_⟩
      · simp [InFlightRejection, hmessage] at hd
      · simp [UnbalancedRejection, hmessage] at hd

/-- A device phase of period 6 whose releases stay open for 7: each overlaps the next, and
the last of a supercycle crosses its end. -/
def overlapDevice : DeviceRateInputs where
  graphOwner := 7
  runtimeOutstandingCapacity := 4
  runtimeCompletionBatchCapacity := 4
  ratePlan := (compileRateTimeline 7 2 [PhaseHandle.make 7 0, PhaseHandle.make 7 1]
    [{ name := ['a'], periodNs := 4, substepCount := 1, relativeDeadlineNs := 3 },
      { name := ['b'], periodNs := 6, substepCount := 1, relativeDeadlineNs := 8 }]
    [{ phase := PhaseHandle.make 7 0, domain := RateDomainHandle.make 7 0 },
      { phase := PhaseHandle.make 7 1, domain := RateDomainHandle.make 7 1, phaseKind := .device }]
    {}).output
  bindings := [{
    phase := PhaseHandle.make 7 1
    domain := RateDomainHandle.make 7 1
    completionBudgetNs := 7
    maximumInFlight := 2 }]
  backends := [{
    backend := DeviceBackendHandle.make 7 0
    capabilities := {
      maxInFlightBatches := 2
      maxCommandsPerBatch := 1
      maxSignalPoints := 1
      completionBatchCapacity := 1 }
    completionTimestampDomainIdentity := 1
    completionTimestampDomainValid := true }]
  buffers := []
  timelines := [{
    timeline := DeviceTimelineHandle.make 7 0
    backend := DeviceBackendHandle.make 7 0 }]
  phases := [{
    phase := PhaseHandle.make 7 1
    backend := DeviceBackendHandle.make 7 0
    declaration := some {
      commandCount := 1
      signalCount := 1
      commands := fun i => if i = 0 then { kind := commandKindDispatch } else {}
      signals := fun i =>
        if i = 0 then { timelineHandle := (DeviceTimelineHandle.make 7 0).value } else {} } }]

theorem compileDeviceRatePlan_overlap :
    (compileDeviceRatePlan overlapDevice {}).status = .ok ∧
      (compileDeviceRatePlan overlapDevice {}).output.report.peakGlobalInFlight = 2 ∧
      ∃ h : overlapDevice.Drains,
        overlapDevice.Admitted h (compileDeviceRatePlan overlapDevice {}).output :=
  ⟨by decide +kernel, by decide +kernel,
    (compileDeviceRatePlan_admission overlapDevice {} 2 [PhaseHandle.make 7 0, PhaseHandle.make 7 1]
      [{ name := ['a'], periodNs := 4, substepCount := 1, relativeDeadlineNs := 3 },
        { name := ['b'], periodNs := 6, substepCount := 1, relativeDeadlineNs := 8 }]
      [{ phase := PhaseHandle.make 7 0, domain := RateDomainHandle.make 7 0 },
        { phase := PhaseHandle.make 7 1, domain := RateDomainHandle.make 7 1, phaseKind := .device }]
      {} (by decide +kernel) rfl).1 (by decide +kernel)⟩

end RtRuntime
