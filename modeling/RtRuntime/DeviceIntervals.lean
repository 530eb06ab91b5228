import RtRuntime.DeviceTables
import RtRuntime.TimelineSpec

/-!
# Device releases as intervals

The schedule the device-rate compiler has to admit: every mandatory device release is open
from its release to the earlier of its deadline and its budget, in every repetition of the
supercycle (`deviceSchedule`). The intervals the compiler collects are these releases under
their position in the interval table.
-/

namespace RtRuntime

open List

namespace DeviceRateInputs

section Schedule

variable (inputs : DeviceRateInputs)

/-- The device binding of a phase. -/
def bindingOf (phase : PhaseHandle) : Option DeviceRateBindingSpec :=
  inputs.bindings.find? fun binding => binding.phase = phase

/-- The backend on which a phase runs. -/
def backendOf (phase : PhaseHandle) : Option DeviceBackendHandle :=
  (inputs.phases.find? fun source => source.phase = phase).map (·.backend)

/-- The end of a release: its deadline, or the end of its budget if that is earlier. -/
def completionTime (release : ReferenceRelease) : ℕ :=
  min release.deadlineTimeNs.toNat (release.releaseTimeNs.toNat +
    ((inputs.bindingOf release.phase).getD {}).completionBudgetNs.toNat)

/-- The mandatory releases of the bound device phases, with their reference indices. -/
def mandatoryDevice : List (ReferenceRelease × ℕ) :=
  inputs.ratePlan.releases.zipIdx.filter fun entry =>
    entry.1.phaseKind = .device && !entry.1.optional && (inputs.bindingOf entry.1.phase).isSome

/-- Every release begins within the supercycle and ends within one more. -/
def Drains : Prop :=
  ∀ entry ∈ inputs.mandatoryDevice,
    entry.1.releaseTimeNs.toNat < inputs.ratePlan.supercycleNs.toNat ∧
    entry.1.releaseTimeNs.toNat < inputs.completionTime entry.1 ∧
    inputs.completionTime entry.1 ≤
      entry.1.releaseTimeNs.toNat + inputs.ratePlan.supercycleNs.toNat

theorem zipIdx_nodup {α : Type} (l : List α) : l.zipIdx.Nodup :=
  .of_map (·.2) (by rw [zipIdx_map_snd]; exact nodup_range' ..)

/-- The intervals of the mandatory device releases, repeated with the supercycle. -/
def deviceSchedule (h : inputs.Drains) : CyclicSchedule (ReferenceRelease × ℕ) where
  period := inputs.ratePlan.supercycleNs.toNat
  items := inputs.mandatoryDevice
  start entry := entry.1.releaseTimeNs.toNat
  stop entry := inputs.completionTime entry.1
  nodup := (zipIdx_nodup _).filter _
  start_lt entry he := (h entry he).1
  start_lt_stop entry he := (h entry he).2.1
  stop_le entry he := (h entry he).2.2

/-- The releases of one phase. -/
def ofPhase (phase : PhaseHandle) (entry : ReferenceRelease × ℕ) : Bool := entry.1.phase = phase

/-- The releases on one backend. -/
def onBackend (backend : DeviceBackendHandle) (entry : ReferenceRelease × ℕ) : Bool :=
  inputs.backendOf entry.1.phase = some backend

end Schedule

/-! ## The collected intervals -/

variable {inputs : DeviceRateInputs}

/-- The interval collected for a device record. -/
structure IntervalOf (inputs : DeviceRateInputs) (inventories : Inventories) (tables : PhaseTables)
    (entry : ReferenceRelease × ℕ) (interval : DeviceRateAdmissionInterval) : Prop where
  phase : interval.phase = entry.1.phase
  optional : interval.optional = entry.1.optional
  start : interval.releaseTimeNs = entry.1.releaseTimeNs
  compiled : ∃ n, tables.planPhaseByRegistration entry.1.phase.index = some n ∧
    interval.backend = (tables.phases.getD n {}).backend ∧
    interval.completionDeadlineNs.toNat = min entry.1.deadlineTimeNs.toNat
      (entry.1.releaseTimeNs.toNat + (tables.phases.getD n {}).completionBudgetNs.toNat)
  start_lt_stop : entry.1.releaseTimeNs.toNat < interval.completionDeadlineNs.toNat
  stop_le : interval.completionDeadlineNs.toNat ≤
    entry.1.releaseTimeNs.toNat + inputs.ratePlan.supercycleNs.toNat
  carries : interval.carriesAcrossSupercycle =
    decide (inputs.ratePlan.supercycleNs.toNat < interval.completionDeadlineNs.toNat)

/-- The mandatory intervals with their positions. -/
def mandatoryIntervals (intervals : List DeviceRateAdmissionInterval) :
    List (DeviceRateAdmissionInterval × ℕ) :=
  intervals.zipIdx.filter fun entry => !entry.1.optional

/-- The two events of an interval. -/
def eventsOf (period : ℕ) (entry : DeviceRateAdmissionInterval × ℕ) : List (SweepEvent ℕ) :=
  [⟨entry.1.releaseTimeNs.toNat, true, entry.2⟩,
    ⟨if period < entry.1.completionDeadlineNs.toNat
      then entry.1.completionDeadlineNs.toNat - period else entry.1.completionDeadlineNs.toNat,
      false, entry.2⟩]

/-- Its completion within the period. -/
def completionOf (period : ℕ) (entry : DeviceRateAdmissionInterval × ℕ) : ℕ × ℕ :=
  (entry.1.completionDeadlineNs.toNat % period, entry.2)

/-- The state of the collecting loop after the records in `done`. -/
structure Collected (inputs : DeviceRateInputs) (inventories : Inventories) (tables : PhaseTables)
    (done : List (ReferenceRelease × ℕ)) (state : IntervalState) : Prop where
  intervals : List.Forall₂ (inputs.IntervalOf inventories tables)
    (done.filter fun entry => entry.1.phaseKind = .device) state.intervals
  events : state.events = (mandatoryIntervals state.intervals).flatMap
    (eventsOf inputs.ratePlan.supercycleNs.toNat)
  completions : state.completions = (mandatoryIntervals state.intervals).map
    (completionOf inputs.ratePlan.supercycleNs.toNat)

theorem mandatoryIntervals_concat (intervals : List DeviceRateAdmissionInterval)
    (interval : DeviceRateAdmissionInterval) :
    mandatoryIntervals (intervals ++ [interval]) = mandatoryIntervals intervals ++
      if interval.optional then [] else [(interval, intervals.length)] := by
  rw [mandatoryIntervals, zipIdx_append, filter_append]
  cases h : interval.optional <;> simp [mandatoryIntervals, h]

variable {entry : ReferenceRelease × ℕ} {inventories : Inventories} {tables : PhaseTables}

theorem admissionInterval_intervalOf {n completion : ℕ}
    (hn : tables.planPhaseByRegistration entry.1.phase.index = some n)
    (hc : completion = min entry.1.deadlineTimeNs.toNat
      (entry.1.releaseTimeNs.toNat + (tables.phases.getD n {}).completionBudgetNs.toNat))
    (hlt : entry.1.releaseTimeNs.toNat < completion)
    (hle : completion ≤ entry.1.releaseTimeNs.toNat + inputs.ratePlan.supercycleNs.toNat) :
    inputs.IntervalOf inventories tables entry
        (inputs.admissionInterval inventories (tables.phases.getD n {}) entry completion) ∧
      (UInt64.ofNat completion).toNat = completion := by
  have hstop : (UInt64.ofNat completion).toNat = completion :=
    toNat_ofNat_of_le (hc.trans_le ((min_le_left _ _).trans (toNat_le_u64Max _)))
  refine ⟨⟨rfl, rfl, rfl, ⟨n, hn, rfl, hstop.trans hc⟩, ?_, ?_, ?_⟩, hstop⟩
  · exact hlt.trans_eq hstop.symm
  · exact hstop.trans_le hle
  · simp only [admissionInterval, hstop, gt_iff_lt]

/-- One turn of the collecting loop. -/
theorem Collected.step {done : List (ReferenceRelease × ℕ)} {state state' : IntervalState}
    (h : inputs.Collected inventories tables done state)
    (hstep : inputs.collectInterval inventories tables state entry = .ok state') :
    inputs.Collected inventories tables (done ++ [entry]) state' := by
  by_cases hdevice : entry.1.phaseKind = .device
  swap
  · have hskip : (done ++ [entry]).filter (fun entry => entry.1.phaseKind = .device) =
        done.filter fun entry => entry.1.phaseKind = .device := by
      simp [filter_append, hdevice]
    rw [collectInterval, if_pos hdevice] at hstep
    cases hstep
    exact ⟨hskip ▸ h.intervals, h.events, h.completions⟩
  rw [collectInterval, if_neg (not_not.mpr hdevice)] at hstep
  simp only [bind_eq_ok, orReject_eq_ok, reject_eq_ok, Unique.exists_iff] at hstep
  obtain ⟨n, hn, budget, hbudget, hdrain, hstep⟩ := hstep
  obtain ⟨-, rfl⟩ := (checkedAdd_eq_some (toNat_le_u64Max _)).mp hbudget
  generalize hc : min entry.1.deadlineTimeNs.toNat _ = completion at hdrain hstep
  rw [not_or, not_le, not_lt] at hdrain
  obtain ⟨hnew, hstop⟩ : inputs.IntervalOf inventories tables entry
        (inputs.admissionInterval inventories (tables.phases.getD n {}) entry completion) ∧
      (UInt64.ofNat completion).toNat = completion :=
    admissionInterval_intervalOf hn hc.symm hdrain.1 (by omega)
  have hmore := mandatoryIntervals_concat state.intervals
    (inputs.admissionInterval inventories (tables.phases.getD n {}) entry completion)
  rw [hnew.optional] at hmore
  have hcollected : Forall₂ (inputs.IntervalOf inventories tables)
      ((done ++ [entry]).filter fun entry => entry.1.phaseKind = .device)
      (state.intervals ++ [inputs.admissionInterval inventories (tables.phases.getD n {}) entry
        completion]) := by
    rw [filter_append, filter_cons_of_pos (by simpa using hdevice)]
    exact rel_append h.intervals (.cons hnew .nil)
  cases hoptional : entry.1.optional with
  | true =>
    rw [if_pos hoptional] at hstep
    cases hstep
    rw [if_pos hoptional, append_nil] at hmore
    exact ⟨hcollected, hmore ▸ h.events, hmore ▸ h.completions⟩
  | false =>
    rw [if_neg (by simp [hoptional])] at hstep hmore
    cases hstep
    refine ⟨hcollected, ?_, ?_⟩
    · rw [hmore, flatMap_append, ← h.events]
      simp [eventsOf, admissionInterval, hstop]
    · rw [hmore, map_append, ← h.completions]
      simp [completionOf, admissionInterval, hstop]

theorem collectIntervals_collected {state : IntervalState}
    (h : inputs.collectIntervals inventories tables = .ok state) :
    inputs.Collected inventories tables inputs.ratePlan.releases.zipIdx state :=
  foldlM_invariant (P := fun done t => inputs.Collected inventories tables done t) h
    ⟨.nil, rfl, rfl⟩ fun _ _ _ _ _ _ hc hstep => hc.step hstep

/-! ## Intervals and records -/

variable {interval : DeviceRateAdmissionInterval} {k : ℕ}

theorem SweepInputs.interval_eq {sweep : SweepInputs} (hk : sweep.intervals[k]? = some interval) :
    sweep.interval k = interval := by
  rw [SweepInputs.interval, getD_eq_getElem?_getD, hk]
  rfl

/-- The device records in reference order. -/
def deviceRecords (inputs : DeviceRateInputs) : List (ReferenceRelease × ℕ) :=
  inputs.ratePlan.releases.zipIdx.filter fun entry => entry.1.phaseKind = .device

/-- The record of an interval. -/
def recordOf (inputs : DeviceRateInputs) (index : ℕ) : ReferenceRelease × ℕ :=
  inputs.deviceRecords.getD index ({}, 0)

/-- The tables and intervals of a compilation that reached its admission. -/
structure Gathered (inputs : DeviceRateInputs) (sweep : SweepInputs) (collected : IntervalState) :
    Prop where
  timeline : IsTimeline inputs.ratePlan
  tables : inputs.IsTables sweep.inventories sweep.tables
  loop : inputs.Collected sweep.inventories sweep.tables inputs.ratePlan.releases.zipIdx collected
  intervals_eq : sweep.intervals = collected.intervals

namespace Gathered

variable {sweep : SweepInputs} {collected : IntervalState} (h : inputs.Gathered sweep collected)
include h

theorem forall₂ : Forall₂ (inputs.IntervalOf sweep.inventories sweep.tables)
    inputs.deviceRecords sweep.intervals :=
  h.intervals_eq ▸ h.loop.intervals

section

variable (hk : sweep.intervals[k]? = some interval)
include hk

/-- The interval at a position belongs to the record at that position. -/
theorem intervalOf :
    inputs.deviceRecords[k]? = some (inputs.recordOf k) ∧
      inputs.IntervalOf sweep.inventories sweep.tables (inputs.recordOf k) interval := by
  obtain ⟨hlen, hget⟩ := forall₂_iff_get.mp h.forall₂
  obtain ⟨hlt, hval⟩ := List.getElem?_eq_some_iff.mp hk
  have hlt' : k < inputs.deviceRecords.length := hlen.symm ▸ hlt
  have hrecord : inputs.recordOf k = inputs.deviceRecords[k] := getD_eq_getElem _ _ hlt'
  refine ⟨?_, ?_⟩
  · rw [hrecord, List.getElem?_eq_getElem]
  · have := hget k hlt' hlt
    rw [get_eq_getElem, get_eq_getElem, hval] at this
    exact hrecord ▸ this

/-- A device record comes from a binding of the rate plan and begins within the
supercycle. -/
theorem record_mem :
    (∃ b ∈ inputs.ratePlan.bindings, (inputs.recordOf k).1.phase = b.phase) ∧
      (inputs.recordOf k).1.releaseTimeNs.toNat < inputs.ratePlan.supercycleNs.toNat := by
  have hmem := fst_mem_of_mem_zipIdx (mem_filter.mp (mem_of_getElem? (h.intervalOf hk).1)).1
  obtain ⟨_, d, i, b, substep, -, -, hb, -, -, hr⟩ := (h.timeline.mem_releases _).mp hmem
  exact ⟨⟨b, hb, by rw [hr]; rfl⟩, h.timeline.releaseTime_lt hmem⟩

/-- What an interval was compiled from. -/
theorem interval_source :
    ∃ n binding phase, binding ∈ inputs.bindings ∧
      inputs.CompiledFrom sweep.inventories sweep.tables n binding phase ∧
      (inputs.recordOf k).1.phase = binding.phase ∧ sweep.phaseIndex interval = n ∧
      interval.backend = phase.backend ∧
      interval.completionDeadlineNs.toNat = inputs.completionTime (inputs.recordOf k).1 ∧
      inputs.bindingOf (inputs.recordOf k).1.phase = some binding := by
  obtain ⟨-, hinterval⟩ := h.intervalOf hk
  obtain ⟨⟨b, hb, hphase⟩, -⟩ := h.record_mem hk
  obtain ⟨n, hn, hbackend, hstop⟩ := hinterval.compiled
  obtain ⟨binding, hbinding, phase, hcompiled, -⟩ := h.tables.plan _ _ hn
  have heq : (inputs.recordOf k).1.phase = binding.phase := by
    rw [hphase, h.tables.phase_eq_of_plan h.timeline.binding_registration hb hcompiled
      (hphase ▸ hn), hcompiled.phase_eq]
  have hget : sweep.tables.phases.getD n {} = phase := by
    rw [getD_eq_getElem?_getD, hcompiled.record]
    rfl
  -- the binding found for the phase is compiled at the same position
  obtain ⟨found, hfound⟩ : ∃ found, inputs.bindingOf (inputs.recordOf k).1.phase = some found :=
    Option.isSome_iff_exists.mp (find?_isSome.mpr ⟨binding, hbinding, by simp [heq]⟩)
  have hfmem := mem_of_find?_eq_some hfound
  have hfphase : found.phase = (inputs.recordOf k).1.phase := by
    simpa using find?_some hfound
  obtain ⟨n', phase', hcompiled'⟩ := h.tables.compiled found hfmem
  obtain rfl : n = n' := by
    have := hcompiled'.plan
    rw [hfphase, hn] at this
    exact Option.some.inj this
  obtain ⟨rfl, -⟩ := hcompiled.unique hcompiled'
  refine ⟨n, found, phase, hfmem, hcompiled', hfphase.symm, ?_, ?_, ?_, hfound⟩
  · rw [SweepInputs.phaseIndex, hinterval.phase, hn]
    rfl
  · rw [hbackend, hget]
  · rw [hstop, hget, completionTime, hfound, hcompiled'.budget]
    rfl

end

theorem exists_interval (he : entry ∈ inputs.deviceRecords) :
    ∃ k interval, sweep.intervals[k]? = some interval ∧ inputs.recordOf k = entry := by
  obtain ⟨k, hk⟩ := mem_iff_getElem?.mp he
  obtain ⟨hlt, -⟩ := List.getElem?_eq_some_iff.mp hk
  have hlen := h.forall₂.length_eq
  have hinterval := List.getElem?_eq_getElem (hlen ▸ hlt)
  refine ⟨k, _, hinterval, ?_⟩
  have hrecord := (h.intervalOf hinterval).1
  rw [hk] at hrecord
  exact (Option.some.inj hrecord).symm

/-- The position of a binding among the compiled phases selects its releases. -/
theorem phaseIndex_eq_iff {n : ℕ} {binding : DeviceRateBindingSpec}
    {phase : CompiledDeviceRatePhase} (hk : sweep.intervals[k]? = some interval)
    (hcompiled : inputs.CompiledFrom sweep.inventories sweep.tables n binding phase) :
    sweep.phaseIndex interval = n ↔ (inputs.recordOf k).1.phase = binding.phase := by
  obtain ⟨n', binding', phase', -, hcompiled', hphase, hindex, -⟩ := h.interval_source hk
  rw [hindex, hphase]
  refine ⟨fun heq => ?_, fun heq => ?_⟩
  · subst heq
    exact (hcompiled'.unique hcompiled).2
  · have := hcompiled'.plan
    rw [heq, hcompiled.plan] at this
    exact (Option.some.inj this).symm

/-- The backend of a compiled phase is that of its source. -/
theorem backendOf_binding {n : ℕ} {binding : DeviceRateBindingSpec}
    {phase : CompiledDeviceRatePhase}
    (hcompiled : inputs.CompiledFrom sweep.inventories sweep.tables n binding phase) :
    inputs.backendOf binding.phase = some phase.backend := by
  obtain ⟨source, hsource, hsphase, hsbackend⟩ := hcompiled.source
  obtain ⟨found, hfound⟩ := Option.isSome_iff_exists.mp (find?_isSome
    (p := fun source : DeviceRatePhaseSource => source.phase = binding.phase)
    |>.mpr ⟨source, hsource, by simp [hsphase]⟩)
  have hfphase : found.phase = binding.phase := by simpa using find?_some hfound
  obtain rfl := phaseSource_unique h.tables.inventories_eq (mem_of_find?_eq_some hfound)
    hsource (by rw [hfphase, hsphase])
  rw [backendOf, hfound, ← hsbackend]
  rfl

theorem backendOf_record (hk : sweep.intervals[k]? = some interval) :
    inputs.backendOf (inputs.recordOf k).1.phase = some interval.backend := by
  obtain ⟨n, binding, phase, -, hcompiled, hphase, -, hbackend, -⟩ := h.interval_source hk
  rw [hphase, h.backendOf_binding hcompiled, hbackend]

/-- Every mandatory device release has a binding. -/
theorem mandatoryDevice_complete : inputs.mandatoryDevice =
    inputs.ratePlan.releases.zipIdx.filter fun entry =>
      entry.1.phaseKind = .device && !entry.1.optional := by
  refine filter_congr fun entry hentry => ?_
  by_cases hdevice : entry.1.phaseKind = .device
  · have hmem : entry ∈ inputs.deviceRecords :=
      mem_filter.mpr ⟨hentry, by simpa using hdevice⟩
    obtain ⟨k, interval, hk, rfl⟩ := h.exists_interval hmem
    obtain ⟨-, binding, -, -, -, -, -, -, -, hbinding⟩ := h.interval_source hk
    simp [hbinding]
  · simp [hdevice]

/-- The backend of an interval is found at its position in the inventory. -/
theorem backendAt (hk : sweep.intervals[k]? = some interval) :
    inputs.BackendAt sweep.inventories interval.backend (sweep.backendIndex interval) := by
  obtain ⟨n, binding, phase, -, hcompiled, -, -, hbackend, -⟩ := h.interval_source hk
  obtain ⟨m, hm, -⟩ := hcompiled.backend
  have hat := backendAt_of_source h.tables.inventories_eq hm
  rwa [SweepInputs.backendIndex, hbackend, hat.index]

/-- The position of a backend in the inventory selects the releases on it. -/
theorem backendIndex_eq_iff {m : ℕ} {source : DeviceRateBackendSource}
    (hk : sweep.intervals[k]? = some interval) (hm : inputs.backends[m]? = some source) :
    sweep.backendIndex interval = m ↔ interval.backend = source.backend := by
  have hat := h.backendAt hk
  refine ⟨fun heq => ?_, fun heq => backendAt_inj h.tables.inventories_eq hat hm heq.symm⟩
  obtain ⟨source', hs', hbackend⟩ := hat.source
  rw [heq, hm] at hs'
  rw [← hbackend, Option.some.inj hs']

end Gathered

/-! ## The schedule of the intervals -/

theorem mem_mandatoryIntervals {intervals : List DeviceRateAdmissionInterval}
    {entry : DeviceRateAdmissionInterval × ℕ} : entry ∈ mandatoryIntervals intervals ↔
      intervals[entry.2]? = some entry.1 ∧ entry.1.optional = false := by
  rw [mandatoryIntervals, mem_filter, mem_zipIdx_iff_getElem?, Bool.not_eq_true']

theorem nodup_mandatoryIntervals (intervals : List DeviceRateAdmissionInterval) :
    ((mandatoryIntervals intervals).map (·.2)).Nodup := by
  refine List.Nodup.sublist (Sublist.map _ filter_sublist) ?_
  rw [zipIdx_map_snd]
  exact nodup_range' ..

namespace Gathered

variable {sweep : SweepInputs} {collected : IntervalState} (h : inputs.Gathered sweep collected)

section
include h

theorem interval_bounds (hk : k ∈ (mandatoryIntervals sweep.intervals).map (·.2)) :
    sweep.intervals[k]? = some (sweep.interval k) ∧ (sweep.interval k).optional = false ∧
      (sweep.interval k).releaseTimeNs.toNat < inputs.ratePlan.supercycleNs.toNat ∧
      (sweep.interval k).releaseTimeNs.toNat < (sweep.interval k).completionDeadlineNs.toNat ∧
      (sweep.interval k).completionDeadlineNs.toNat ≤
        (sweep.interval k).releaseTimeNs.toNat + inputs.ratePlan.supercycleNs.toNat := by
  obtain ⟨⟨interval, k'⟩, hmem, rfl⟩ := mem_map.mp hk
  obtain ⟨hk, hoptional⟩ := mem_mandatoryIntervals.mp hmem
  obtain ⟨-, hof⟩ := h.intervalOf hk
  have hstart := congrArg UInt64.toNat hof.start
  rw [SweepInputs.interval_eq hk]
  refine ⟨hk, hoptional, ?_, ?_, ?_⟩
  · exact hstart.trans_lt (h.record_mem hk).2
  · exact hstart.trans_lt hof.start_lt_stop
  · rw [hstart]
    exact hof.stop_le

end

/-- The mandatory intervals by their positions. -/
def schedule : CyclicSchedule ℕ where
  period := inputs.ratePlan.supercycleNs.toNat
  items := (mandatoryIntervals sweep.intervals).map (·.2)
  start k := (sweep.interval k).releaseTimeNs.toNat
  stop k := (sweep.interval k).completionDeadlineNs.toNat
  nodup := nodup_mandatoryIntervals _
  start_lt _ hk := (h.interval_bounds hk).2.2.1
  start_lt_stop _ hk := (h.interval_bounds hk).2.2.2.1
  stop_le _ hk := (h.interval_bounds hk).2.2.2.2

/-- The mandatory device releases are the records of the mandatory intervals. -/
theorem mandatoryDevice_eq : inputs.mandatoryDevice = h.schedule.items.map inputs.recordOf := by
  have hrecords : inputs.deviceRecords = sweep.intervals.zipIdx.map fun e => inputs.recordOf e.2 := by
    refine ext_getElem (by simp [h.forall₂.length_eq]) fun k hk hk' => ?_
    rw [List.getElem_map, List.getElem_zipIdx, recordOf, Nat.zero_add,
      getD_eq_getElem _ _ hk]
  have hfilter : inputs.mandatoryDevice =
      inputs.deviceRecords.filter fun entry => !entry.1.optional := by
    rw [h.mandatoryDevice_complete, deviceRecords, filter_filter]
    exact filter_congr fun entry _ => Bool.and_comm ..
  have hoptional : mandatoryIntervals sweep.intervals = sweep.intervals.zipIdx.filter
      ((fun entry => !entry.1.optional) ∘ fun e => inputs.recordOf e.2) := by
    refine filter_congr fun e he => ?_
    have hk := mem_zipIdx_iff_getElem?.mp he
    rw [(h.intervalOf hk).2.optional]
    rfl
  change _ = ((mandatoryIntervals sweep.intervals).map (·.2)).map inputs.recordOf
  rw [hfilter, hrecords, filter_map, hoptional, map_map]
  rfl

include h in
theorem drains : inputs.Drains := by
  intro entry hentry
  rw [h.mandatoryDevice_eq, mem_map] at hentry
  obtain ⟨k, hk, rfl⟩ := hentry
  obtain ⟨hget, -, hlt, hstop, hle⟩ := h.interval_bounds hk
  obtain ⟨-, -, -, -, -, -, -, -, hcompletion, -⟩ := h.interval_source hget
  rw [hcompletion] at hstop hle
  rw [(h.intervalOf hget).2.start] at hlt hstop hle
  exact ⟨hlt, hstop, hle⟩

theorem renames : h.schedule.Renames (inputs.deviceSchedule h.drains) inputs.recordOf where
  period := rfl
  items := h.mandatoryDevice_eq
  start k hk := by
    obtain ⟨hget, -⟩ := h.interval_bounds hk
    exact congrArg UInt64.toNat (h.intervalOf hget).2.start.symm
  stop k hk := by
    obtain ⟨hget, -⟩ := h.interval_bounds hk
    obtain ⟨-, -, -, -, -, -, -, -, hcompletion, -⟩ := h.interval_source hget
    exact hcompletion.symm

theorem items_length_le : h.schedule.items.length ≤ referenceReleaseCapacity := by
  have hlen : h.schedule.items.length = inputs.mandatoryDevice.length := by
    rw [h.mandatoryDevice_eq, length_map]
  rw [hlen]
  refine (length_filter_le _ _).trans ?_
  rw [length_zipIdx]
  exact h.timeline.releases_le

/-! ## The sorted events -/

omit h in
theorem before_of_eventKey_le {e f : SweepEvent ℕ} (hle : eventKey e ≤ eventKey f) :
    e.Before f := by
  rw [eventKey, eventKey, Prod.Lex.toLex_le_toLex, Prod.Lex.toLex_le_toLex] at hle
  rcases hle with hlt | ⟨heq, hrest⟩
  · exact Or.inl hlt
  · refine Or.inr ⟨heq, fun he => ?_⟩
    cases hf : f.release with
    | true => rfl
    | false => simp [he, hf] at hrest

theorem isSweep : h.schedule.IsSweep (sortEvents collected.events) := by
  have hevents := h.loop.events
  rw [← h.intervals_eq] at hevents
  have hperm := perm_insertionSort (fun left right => eventKey left ≤ eventKey right)
    collected.events
  refine ⟨fun e => ?_, hperm.nodup_iff.mpr ?_, ?_⟩
  · rw [sortEvents, hperm.mem_iff, hevents, mem_flatMap]
    have hstart : ∀ entry ∈ mandatoryIntervals sweep.intervals,
        eventsOf inputs.ratePlan.supercycleNs.toNat entry =
          [h.schedule.startEvent entry.2, h.schedule.stopEvent entry.2] := by
      intro entry hentry
      have hget := (mem_mandatoryIntervals.mp hentry).1
      have hinterval := SweepInputs.interval_eq hget
      simp only [eventsOf, CyclicSchedule.startEvent, CyclicSchedule.stopEvent,
        CyclicSchedule.carries, schedule, hinterval, decide_eq_true_eq]
    refine ⟨?_, ?_⟩
    · rintro ⟨entry, hentry, he⟩
      rw [hstart entry hentry, mem_cons, mem_singleton] at he
      exact ⟨entry.2, mem_map_of_mem hentry, he⟩
    · rintro ⟨k, hk, he⟩
      obtain ⟨entry, hentry, rfl⟩ := mem_map.mp hk
      exact ⟨entry, hentry, by rw [hstart entry hentry]; simpa using he⟩
  · rw [hevents, nodup_flatMap]
    refine ⟨fun entry _ => by simp [eventsOf], ?_⟩
    refine (pairwise_map.mp (nodup_mandatoryIntervals sweep.intervals)).imp ?_
    rintro a b hab
    simp [Function.onFun, disjoint_left, eventsOf, hab]
  · exact (pairwise_insertionSort _ _).imp before_of_eventKey_le

end Gathered

end DeviceRateInputs

end RtRuntime

