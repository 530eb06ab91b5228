import RtRuntime.ActiveGroup
import RtRuntime.TimelineSpec

/-!
# Groups and their device dependencies

`compile_rate_dispatch` cuts the reference records into groups, one for each domain release,
and stores for every record the device records of its group that it waits for: a slice of
one array, between two offsets. This file reads these slices back. Groups cover the records
in order, so the slice of a record is what was appended when its turn came.
-/

namespace RtRuntime

open List

open StepContext (groupReferences)

/-! ## Groups -/

/-- The groups of the first `count` records: they cover them in order, and the records of a
group belong to one release of one domain. -/
structure GroupsOf (releases : List ReferenceRelease) (groups : List RateReleaseGroup)
    (count : ℕ) : Prop where
  cover : groups.flatMap groupReferences = List.range count
  last : ∀ group, groups.getLast? = some group →
    group.firstReferenceIndex + group.referenceCount = count
  members : ∀ group ∈ groups, ∀ reference ∈ groupReferences group,
    (releases.getD reference {}).domainRegistrationIndex = group.domainRegistrationIndex ∧
      (releases.getD reference {}).domainReleaseSequence = group.domainReleaseSequence

theorem groupReferences_succ (group : RateReleaseGroup) :
    groupReferences { group with referenceCount := group.referenceCount + 1 } =
      groupReferences group ++ [group.firstReferenceIndex + group.referenceCount] := by
  simp only [groupReferences, range'_concat, Nat.one_mul]

variable {count : ℕ}

/-- One more record joins the last group or opens a new one. -/
theorem GroupsOf.push {releases : List ReferenceRelease} {groups : List RateReleaseGroup}
    (h : GroupsOf releases groups count) :
    GroupsOf releases (DispatchInputs.pushGroup groups (releases.getD count {}) count)
      (count + 1) := by
  have hfresh : GroupsOf releases (groups ++ [⟨count, 1,
      (releases.getD count {}).domainRegistrationIndex,
      (releases.getD count {}).domainReleaseSequence, (releases.getD count {}).releaseTimeNs⟩])
        (count + 1) := by
    refine ⟨?_, ?_, forall_mem_concat.mpr ⟨h.members, forall_mem_singleton.mpr ⟨rfl, rfl⟩⟩⟩
    · rw [flatMap_append, h.cover, range_succ]
      rfl
    · rw [getLast?_concat]
      rintro _ ⟨⟩
      rfl
  unfold DispatchInputs.pushGroup
  dsimp only
  cases hlast : groups.getLast? with
  | none =>
    obtain rfl := getLast?_eq_none_iff.mp hlast
    exact hfresh
  | some group =>
    dsimp only
    split
    · exact hfresh
    next hsame =>
      rw [not_or, not_not, not_not] at hsame
      obtain ⟨earlier, rfl⟩ := getLast?_eq_some_iff.mp hlast
      have hend := h.last group hlast
      obtain ⟨hearlier, hmembers⟩ := forall_mem_concat.mp h.members
      rw [dropLast_concat]
      refine ⟨?_, ?_, forall_mem_concat.mpr ⟨hearlier, ?_⟩⟩
      · have hcover := h.cover
        rw [flatMap_append, flatMap_singleton] at hcover ⊢
        rw [groupReferences_succ, ← append_assoc, hcover, hend, range_succ]
      · rw [getLast?_concat, ← hend]
        rintro _ ⟨⟩
        rfl
      · rw [groupReferences_succ, hend]
        exact forall_mem_concat.mpr ⟨hmembers, hsame.1.symm, hsame.2.symm⟩

namespace DispatchInputs

/-- The accumulators of the loop over the records: groups, and a device phase for exactly the
device records. -/
structure Admitted (inputs : DispatchInputs) (count : ℕ) (state : AdmissionState) :
    Prop where
  groups : GroupsOf inputs.ratePlan.releases state.groups count
  length : state.devicePhaseByReference.length = count
  device : ∀ reference < count, (state.devicePhaseByReference.getD reference none).isSome =
    decide ((inputs.ratePlan.releases.getD reference {}).phaseKind = .device)

variable {inputs : DispatchInputs}

theorem devicePhaseOf_isSome {release : ReferenceRelease} {index : ℕ} {phase : Option ℕ}
    (h : inputs.devicePhaseOf release index = .ok phase) :
    phase.isSome = decide (release.phaseKind = .device) := by
  unfold devicePhaseOf at h
  split at h
  next hdevice =>
    cases hadmitted : inputs.admittedPhase release.phase release.domain with
    | none => simp [hadmitted, orReject, Except.map] at h
    | some admitted =>
      simp only [hadmitted, orReject, Except.map] at h
      cases h
      simp [hdevice]
  next hother =>
    cases h
    simp [hother]

theorem Admitted.step {state state' : AdmissionState} (h : Admitted inputs count state)
    (hstep : inputs.admitRelease state (inputs.ratePlan.releases.getD count {}, count) =
      .ok state') : Admitted inputs (count + 1) state' := by
  simp only [admitRelease, bind_eq_ok] at hstep
  obtain ⟨_, -, _, -, phase, hphase, admitted, hadmitted, hstate⟩ := hstep
  cases hstate
  have hsame : admitted.groups = state.groups ∧
      admitted.devicePhaseByReference = state.devicePhaseByReference := by
    unfold admitMandatory at hadmitted
    split at hadmitted
    · simp only [bind_eq_ok] at hadmitted
      obtain ⟨_, -, _, -, hadmitted⟩ := hadmitted
      cases hadmitted
      exact ⟨rfl, rfl⟩
    · cases hadmitted
      exact ⟨rfl, rfl⟩
  refine ⟨?_, ?_, fun reference hreference => ?_⟩
  · dsimp only
    rw [hsame.1]
    exact h.groups.push
  · dsimp only
    rw [hsame.2, length_append, h.length]
    rfl
  · dsimp only
    rw [hsame.2]
    rcases Nat.lt_succ_iff_lt_or_eq.mp hreference with hlt | rfl
    · rw [getD_append _ _ _ _ (by rw [h.length]; exact hlt)]
      exact h.device reference hlt
    · rw [getD_append_right _ _ _ _ h.length.le, h.length, Nat.sub_self]
      exact devicePhaseOf_isSome hphase

theorem admitReleases_admitted {state : AdmissionState}
    (h : inputs.ratePlan.releases.zipIdx.foldlM inputs.admitRelease {} = .ok state) :
    Admitted inputs inputs.ratePlan.releases.length state := by
  have hinvariant : Admitted inputs inputs.ratePlan.releases.zipIdx.length state := by
    refine foldlM_invariant (P := fun done t => Admitted inputs done.length t) h
      ⟨⟨rfl, nofun, forall_mem_nil _⟩, rfl, nofun⟩ ?_
    intro done entry rest t t' hl ht hstep
    have hget : inputs.ratePlan.releases.zipIdx[done.length]? = some entry := by rw [hl]; simp
    obtain ⟨hlt, rfl⟩ := List.getElem?_eq_some_iff.mp hget
    rw [List.getElem_zipIdx, Nat.zero_add, ← getD_eq_getElem (d := {})] at hstep
    rw [length_append]
    exact ht.step hstep
  rwa [length_zipIdx] at hinvariant

/-! ## Slices -/

/-- The dependencies of a record, as the offsets delimit them. -/
def DependencySlices.of (slices : DependencySlices) (reference : ℕ) : List ℕ :=
  ActivePlan.sliceOf slices.offsets (fun slot => slices.dependencies.getD slot 0) reference

variable (inputs) in
/-- The slices of some records, each with its group, are complete; the records up to `count`
have been through. -/
structure Sliced (devicePhaseByReference : List (Option ℕ))
    (entries : List (RateReleaseGroup × ℕ)) (count : ℕ) (slices : DependencySlices) : Prop where
  end_eq : slices.offsets count = slices.dependencies.length
  slice : ∀ entry ∈ entries, entry.2 < count ∧
    slices.offsets (entry.2 + 1) ≤ slices.dependencies.length ∧
    slices.of entry.2 = inputs.prerequisitesOf devicePhaseByReference entry.1 entry.2

variable {devicePhaseByReference : List (Option ℕ)}

section

variable {entries : List (RateReleaseGroup × ℕ)} {slices : DependencySlices}
  (h : inputs.Sliced devicePhaseByReference entries count slices) (group : RateReleaseGroup)
include h group

/-- The slice of a record is what was appended for it. -/
theorem Sliced.step : inputs.Sliced devicePhaseByReference (entries ++ [(group, count)]) (count + 1)
      (inputs.recordPrerequisites devicePhaseByReference group slices count) := by
  refine ⟨Function.update_self .., forall_mem_concat.mpr
    ⟨fun entry hmem => ?_, Nat.lt_succ_self _, by simp [recordPrerequisites], ?_⟩⟩
  · obtain ⟨hlt, hle, hslice⟩ := h.slice entry hmem
    have hfirst : entry.2 ≠ count + 1 := by omega
    have hnext : entry.2 + 1 ≠ count + 1 := by omega
    refine ⟨by omega, ?_, ?_⟩
    · simp only [recordPrerequisites, Function.update_of_ne hnext, length_append]
      omega
    · rw [← hslice]
      simp only [DependencySlices.of, ActivePlan.sliceOf, recordPrerequisites,
        Function.update_of_ne hnext, Function.update_of_ne hfirst]
      refine map_congr_left fun slot hslot => ?_
      rw [mem_range'_1] at hslot
      exact getD_append _ _ _ _ (by omega)
  · simp only [DependencySlices.of, ActivePlan.sliceOf, recordPrerequisites,
      Function.update_self, Function.update_of_ne (Nat.succ_ne_self count).symm, h.end_eq,
      length_append, Nat.add_sub_cancel_left]
    generalize inputs.prerequisitesOf devicePhaseByReference group count = appended
    refine ext_getElem (by simp) fun i hi hi' => ?_
    rw [List.getElem_map, List.getElem_range', getD_append_right _ _ _ _ (by omega),
      getD_eq_getElem _ _ (by omega)]
    simp

theorem Sliced.steps (records : ℕ) : inputs.Sliced devicePhaseByReference
      (entries ++ (range' count records).map fun reference => (group, reference))
      (count + records) ((range' count records).foldl
        (inputs.recordPrerequisites devicePhaseByReference group) slices) := by
  induction records with
  | zero => simpa using h
  | succ records ih =>
    rw [range'_concat, Nat.one_mul, map_append, ← append_assoc, foldl_append]
    exact ih.step group

end

/-- A record with its group. -/
def groupEntries (group : RateReleaseGroup) : List (RateReleaseGroup × ℕ) :=
  (groupReferences group).map fun reference => (group, reference)

theorem recordGroups_sliced {groups : List RateReleaseGroup} {total : ℕ}
    (hcover : groups.flatMap groupReferences = List.range total) :
    inputs.Sliced devicePhaseByReference (groups.flatMap groupEntries) total
      (groups.foldl (inputs.recordGroup devicePhaseByReference) ({}, 0)).1 := by
  induction groups using List.reverseRecOn generalizing total with
  | nil =>
    obtain rfl : total = 0 := by simpa using hcover
    exact ⟨rfl, forall_mem_nil _⟩
  | append_singleton done group ih =>
    rw [flatMap_append, flatMap_singleton, range_eq_range'] at hcover
    -- the last group begins where those before it end
    obtain ⟨count, hle, hdone, hgroup⟩ := range'_eq_append_iff.mp hcover.symm
    rw [Nat.zero_add, Nat.mul_one] at hgroup
    rw [flatMap_append, flatMap_singleton, foldl_append]
    have hsliced := (ih (hdone.trans range_eq_range'.symm)).steps group (total - count)
    rw [← hgroup, Nat.add_sub_cancel' hle] at hsliced
    exact hsliced

/-- What `compile_rate_dispatch` has established about the groups of a plan and the records
they wait for. -/
structure Grouped (inputs : DispatchInputs) (plan : CompiledRateDispatchPlan) : Prop where
  members : ∀ group ∈ plan.groups, ∀ reference ∈ groupReferences group,
    reference < inputs.ratePlan.releases.length ∧
    (inputs.ratePlan.releases.getD reference {}).domainRegistrationIndex =
      group.domainRegistrationIndex ∧
    (inputs.ratePlan.releases.getD reference {}).domainReleaseSequence =
      group.domainReleaseSequence
  /-- the first device record before the record, for each dependency of its phase -/
  waits : ∀ group ∈ plan.groups, ∀ reference ∈ groupReferences group,
    ∀ dependency ∈ inputs.dependencies,
      dependency.dependent = (inputs.ratePlan.releases.getD reference {}).phase →
      ∀ prerequisite, (List.range' group.firstReferenceIndex
          (reference - group.firstReferenceIndex)).find? (fun earlier =>
            (inputs.ratePlan.releases.getD earlier {}).phase = dependency.prerequisite &&
              (inputs.ratePlan.releases.getD earlier {}).phaseKind = .device) =
          some prerequisite →
        prerequisite ∈ ActivePlan.sliceOf plan.deviceDependencyOffsets
          (fun slot => plan.deviceDependencies.getD slot 0) reference

theorem compilePlan_grouped {plan : CompiledRateDispatchPlan} (h : inputs.compilePlan = .ok plan) :
    Grouped inputs plan := by
  simp only [compilePlan, bind_eq_ok, reject_eq_ok, Unique.exists_iff] at h
  obtain ⟨-, state, hloop, -, records, -, h⟩ := h
  cases h
  have hadmitted := admitReleases_admitted hloop
  have hmem : ∀ group ∈ state.groups, ∀ reference ∈ groupReferences group,
      reference < inputs.ratePlan.releases.length := by
    intro group hgroup reference hreference
    rw [← List.mem_range, ← hadmitted.groups.cover]
    exact mem_flatMap.mpr ⟨group, hgroup, hreference⟩
  refine ⟨fun group hgroup reference hreference => ⟨hmem group hgroup reference hreference,
    hadmitted.groups.members group hgroup reference hreference⟩, ?_⟩
  intro group hgroup reference hreference dependency hdependency hdependent prerequisite hfind
  have hsliced : inputs.Sliced state.devicePhaseByReference _ _ _ :=
    recordGroups_sliced hadmitted.groups.cover
  obtain ⟨-, -, hslice⟩ := hsliced.slice (group, reference) (mem_flatMap.mpr
    ⟨group, hgroup, mem_map.mpr ⟨reference, hreference, rfl⟩⟩)
  change prerequisite ∈ DependencySlices.of _ reference
  rw [hslice]
  refine mem_filterMap.mpr ⟨dependency, hdependency, ?_⟩
  rw [if_neg (not_not.mpr hdependent), ← hfind]
  -- the table of device phases tells the device records apart
  have hreference' := hmem group hgroup reference hreference
  refine List.find?_congr fun earlier hearlier => ?_
  rw [mem_range'_1] at hearlier
  rw [hadmitted.device earlier (by omega)]

end DispatchInputs

/-! ## Records of one phase -/

/-- Two records of a phase in one group are different substeps of it. -/
theorem IsTimeline.substeps_differ {plan : CompiledRatePlan} (h : IsTimeline plan)
    {first second : ℕ} (hlt : first < second) (hsecond : second < plan.releases.length)
    (hdomain : (plan.releases.getD first {}).domainRegistrationIndex =
      (plan.releases.getD second {}).domainRegistrationIndex)
    (hsequence : (plan.releases.getD first {}).domainReleaseSequence =
      (plan.releases.getD second {}).domainReleaseSequence)
    (hphase : (plan.releases.getD first {}).phase = (plan.releases.getD second {}).phase) :
    1 < (plan.releases.getD first {}).substepCount.toNat := by
  have hfirst : first < plan.releases.length := hlt.trans hsecond
  have hkey := pairwise_iff_getElem.mp h.sorted first second hfirst hsecond hlt
  rw [getD_eq_getElem _ _ hfirst, getD_eq_getElem _ _ hsecond] at *
  obtain ⟨i, d, k, b, s, hd, hk, hb, hbi, hs, hr⟩ :=
    (h.mem_releases _).mp (List.getElem_mem hfirst)
  obtain ⟨i', d', k', b', s', hd', hk', hb', hbi', hs', hr'⟩ :=
    (h.mem_releases _).mp (List.getElem_mem hsecond)
  rw [hr, hr'] at hkey hdomain hsequence hphase
  rw [hr]
  by_contra hone
  -- equal domains, sequences, phases and substeps would be one entry of the table
  obtain rfl : i = i' := by
    rw [← (h.domain_index i d hd).1, ← (h.domain_index i' d' hd').1]
    exact hdomain
  obtain rfl := Option.some.inj (hd.symm.trans hd')
  obtain rfl : b = b' := inj_on_of_nodup_map h.binding_phase hb hb' hphase
  have hsmall : ∀ n < d.releasesPerSupercycle.toNat, (UInt64.ofNat n).toNat = n := fun n hn =>
    UInt64.toNat_ofNat_of_lt' (hn.trans d.releasesPerSupercycle.toNat_lt)
  obtain rfl : k = k' := by
    rw [← hsmall k hk, ← hsmall k' hk']
    exact congrArg UInt64.toNat hsequence
  have hcount : (d.release k b s).substepCount = d.substepCount := rfl
  rw [hcount] at hone
  obtain rfl : s = s' := by omega
  exact lt_irrefl _ hkey

/-- In a group of a plan, a phase of a domain with one substep has one record. -/
theorem DispatchInputs.Grouped.single_record {inputs : DispatchInputs}
    {plan : CompiledRateDispatchPlan} (h : Grouped inputs plan)
    (htimeline : IsTimeline inputs.ratePlan) {group : RateReleaseGroup}
    (hgroup : group ∈ plan.groups) {first second : ℕ} (hfirst : first ∈ groupReferences group)
    (hsecond : second ∈ groupReferences group)
    (hphase : (inputs.ratePlan.releases.getD first {}).phase =
      (inputs.ratePlan.releases.getD second {}).phase)
    (hsubsteps : ∀ reference ∈ groupReferences group,
      (inputs.ratePlan.releases.getD reference {}).phase =
        (inputs.ratePlan.releases.getD second {}).phase →
      (inputs.ratePlan.releases.getD reference {}).substepCount = 1) : first = second := by
  have horder : ∀ {a b : ℕ}, a ∈ groupReferences group → b ∈ groupReferences group →
      (inputs.ratePlan.releases.getD a {}).phase = (inputs.ratePlan.releases.getD b {}).phase →
      (inputs.ratePlan.releases.getD a {}).phase =
        (inputs.ratePlan.releases.getD second {}).phase → ¬ a < b := by
    intro a b ha hb hab hsame hlt
    obtain ⟨-, hda, hsa⟩ := h.members group hgroup a ha
    obtain ⟨hlength, hdb, hsb⟩ := h.members group hgroup b hb
    have htwo := htimeline.substeps_differ hlt hlength (hda.trans hdb.symm) (hsa.trans hsb.symm) hab
    rw [hsubsteps a ha hsame] at htwo
    exact absurd htwo (by decide)
  have := horder hfirst hsecond hphase hphase
  have := horder hsecond hfirst hphase.symm rfl
  omega

end RtRuntime
