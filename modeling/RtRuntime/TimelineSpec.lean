import RtRuntime.RateTimeline
import RtRuntime.GraphConflicts

/-!
# What a compiled timeline contains

One specification lemma per loop of `compile_rate_timeline`: the ownership tables
(`BindingTables.Records`), the supercycle (`supercycle_spec`), the bindings in
compiled order (`OrderedBindings.Lists`) and the release table
(`mem_generateReleases`, `key_ne_generateReleases`). They are collected twice: as
`IsTimeline`, the facts about the plan alone that the later compilers and the
runtime rely on, and as `compileRateTimeline_spec`, in terms of the inputs.
-/

namespace RtRuntime

open Function List

/-! ## The ownership tables -/

/-- What the tables hold after the bindings `done`, each with its position. -/
structure BindingTables.Records (graphOwner : UInt32) (phaseCount domainCount : ℕ)
    (done : List (RateBindingSpec × ℕ)) (t : BindingTables) : Prop where
  wellFormed : ∀ e ∈ done, e.1.wellFormed graphOwner phaseCount domainCount = true
  binding : ∀ e ∈ done, t.bindingByPhase e.1.phase.index = some e.2
  owned : ∀ p i, t.bindingByPhase p = some i → ∃ e ∈ done, e.1.phase.index = p ∧ e.2 = i
  count : ∀ d, t.phasesPerDomain d = done.countP (fun e => e.1.domain.index = d)

variable {graphOwner : UInt32} {t : BindingTables} {phaseCount : ℕ}

/-- One binding keeps the description of the tables. -/
theorem recordBinding_records {domainCount : ℕ} {done : List (RateBindingSpec × ℕ)}
    {t' : BindingTables} {e : RateBindingSpec × ℕ}
    (h : t.Records graphOwner phaseCount domainCount done)
    (hstep : recordBinding graphOwner phaseCount domainCount t e = .ok t') :
    t'.Records graphOwner phaseCount domainCount (done ++ [e]) := by
  obtain ⟨binding, index⟩ := e
  unfold recordBinding at hstep
  rw [reject_bind_eq_ok, reject_bind_eq_ok] at hstep
  obtain ⟨hwf, hnew, hstep⟩ := hstep
  cases hstep
  rw [Bool.not_eq_false] at hwf
  simp only [Option.isSome_iff_ne_none, ne_eq, not_not] at hnew
  have hother : ∀ e ∈ done, e.1.phase.index ≠ binding.phase.index := by
    intro e he heq
    have := h.binding e he
    rw [heq, hnew] at this
    cases this
  refine ⟨forall_mem_concat.mpr ⟨h.wellFormed, hwf⟩,
    forall_mem_concat.mpr ⟨fun e he => ?_, update_self ..⟩, ?_, ?_⟩
  · rw [← h.binding e he]
    exact update_of_ne (hother e he) _ _
  · intro p i hp
    change update t.bindingByPhase binding.phase.index (some index) p = some i at hp
    by_cases hpe : p = binding.phase.index
    · rw [hpe, update_self] at hp
      exact ⟨_, mem_append_right _ (mem_singleton_self _), hpe.symm, Option.some.inj hp⟩
    · rw [update_of_ne hpe] at hp
      obtain ⟨e, he, hep⟩ := h.owned p i hp
      exact ⟨e, mem_append_left _ he, hep⟩
  · intro d
    rw [countP_append, ← h.count d]
    by_cases hd : d = binding.domain.index
    · subst hd
      simp
    · simp [hd, Ne.symm hd]

variable {bindings : List RateBindingSpec}

theorem recordBindings_spec {domainCount : ℕ}
    (h : bindings.zipIdx.foldlM (recordBinding graphOwner phaseCount domainCount) {} = .ok t) :
    t.Records graphOwner phaseCount domainCount bindings.zipIdx :=
  foldlM_invariant (P := fun done t => t.Records graphOwner phaseCount domainCount done) h
    ⟨by simp, by simp, by simp, by simp⟩
    (fun _ _ _ _ _ _ hr hstep => recordBinding_records hr hstep)

/-! ## The supercycle -/

variable {d : RateDomainSpec}

theorem RateDomainSpec.wellFormed_iff : d.wellFormed = true ↔
    0 < d.periodNs.toNat ∧ 0 < d.substepCount.toNat ∧
      d.substepCount.toNat ≤ rateDomainSubstepCapacity ∧ validName d.name = true ∧
      (d.criticality = .background ∨ d.criticality = .normal ∨ d.criticality = .critical) := by
  have h64 : d.periodNs ≠ 0 ↔ 0 < d.periodNs.toNat := by
    rw [Nat.pos_iff_ne_zero, ne_eq, ne_eq, ← UInt64.toNat_inj]
    rfl
  have h32 : d.substepCount ≠ 0 ↔ 0 < d.substepCount.toNat := by
    rw [Nat.pos_iff_ne_zero, ne_eq, ne_eq, ← UInt32.toNat_inj]
    rfl
  simp only [RateDomainSpec.wellFormed, Bool.and_eq_true, Bool.or_eq_true, decide_eq_true_eq,
    h64, h32, and_assoc, or_assoc]

/-- The loop over the domains computes the least common multiple of the periods
without leaving 64 bits, over well-formed domains only. -/
theorem supercycle_spec {domains : List RateDomainSpec} {supercycle : ℕ}
    (h : domains.zipIdx.foldlM (extendSupercycle domains) 1 = .ok supercycle) :
    supercycle = (domains.map (·.periodNs.toNat)).foldl Nat.lcm 1 ∧ supercycle ≤ u64Max ∧
      ∀ d ∈ domains, d.wellFormed = true := by
  have hP := foldlM_invariant (P := fun done s =>
      s = (done.map (·.1.periodNs.toNat)).foldl Nat.lcm 1 ∧ s ≤ u64Max ∧
        ∀ e ∈ done, e.1.wellFormed = true) h
    ⟨rfl, by decide, by simp⟩ ?_
  · obtain ⟨hs, hle, hwf⟩ := hP
    refine ⟨?_, hle, fun d hd => ?_⟩
    · rw [hs, ← zipIdx_map_fst 0 domains, map_map]
      simp [Function.comp_def]
    · obtain ⟨i, hi, rfl⟩ := getElem_of_mem hd
      exact forall_mem_zipIdx'.mp hwf i hi
  · rintro done ⟨d, i⟩ rest s s' - ⟨hs, -, hwf⟩ hstep
    unfold extendSupercycle at hstep
    rw [reject_bind_eq_ok, reject_bind_eq_ok, orReject_eq_ok] at hstep
    obtain ⟨hd, -, hlcm⟩ := hstep
    obtain ⟨hmul, hle, -⟩ := checkedLcm_eq_some hlcm
    refine ⟨?_, hle, forall_mem_concat.mpr ⟨hwf, Bool.not_eq_false _ ▸ hd⟩⟩
    rw [map_append, foldl_append, ← hs, hmul]
    rfl

/-! ## The bindings in compiled order -/

/-- The compiled binding of the phase at one position of the order. -/
def compiledBinding (bindings : List RateBindingSpec) (t : BindingTables)
    (e : PhaseHandle × ℕ) : CompiledRateBinding :=
  let binding := bindings.getD ((t.bindingByPhase e.1.index).getD 0) {}
  ⟨e.1, binding.domain, binding.phaseKind, e.2⟩

/-- What the loop over the compiled order has listed after the positions `done`. -/
structure OrderedBindings.Lists (graphOwner : UInt32) (phaseCount : ℕ)
    (bindings : List RateBindingSpec) (t : BindingTables) (done : List (PhaseHandle × ℕ))
    (s : OrderedBindings) : Prop where
  belongs : ∀ e ∈ done, e.1.belongs graphOwner phaseCount = true
  position : ∀ e ∈ done, s.compiledIndexByPhase e.1.index = some e.2
  bindings_eq : s.bindings = done.map (compiledBinding bindings t)

variable {s : OrderedBindings}

theorem orderBinding_lists {done : List (PhaseHandle × ℕ)} {s' : OrderedBindings}
    {e : PhaseHandle × ℕ} (h : s.Lists graphOwner phaseCount bindings t done)
    (hstep : orderBinding graphOwner phaseCount bindings t s e = .ok s') :
    s'.Lists graphOwner phaseCount bindings t (done ++ [e]) := by
  obtain ⟨phase, index⟩ := e
  unfold orderBinding at hstep
  rw [reject_bind_eq_ok, reject_bind_eq_ok] at hstep
  obtain ⟨hwf, hnew, hstep⟩ := hstep
  cases hstep
  simp only [Option.isSome_iff_ne_none, ne_eq, not_not] at hnew
  refine ⟨forall_mem_concat.mpr ⟨h.belongs, ?_⟩,
    forall_mem_concat.mpr ⟨fun e he => ?_, update_self ..⟩, ?_⟩
  · rw [PhaseHandle.belongs_iff]
    simpa [and_assoc] using hwf
  · rw [← h.position e he]
    refine update_of_ne (fun heq => ?_) _ _
    have := h.position e he
    rw [heq, hnew] at this
    cases this
  · rw [map_append, ← h.bindings_eq]
    rfl

variable {order : List PhaseHandle}

theorem orderBindings_spec
    (h : order.zipIdx.foldlM (orderBinding graphOwner phaseCount bindings t) {} = .ok s) :
    s.Lists graphOwner phaseCount bindings t order.zipIdx :=
  foldlM_invariant (P := fun done s => s.Lists graphOwner phaseCount bindings t done) h
    ⟨by simp, by simp, rfl⟩ (fun _ _ _ _ _ _ hl hstep => orderBinding_lists hl hstep)

/-- Distinct positions of the order hold distinct phase indices. -/
theorem OrderedBindings.Lists.nodup_index
    (h : s.Lists graphOwner phaseCount bindings t order.zipIdx) :
    (order.map (·.index)).Nodup := by
  rw [nodup_iff_injective_getElem]
  intro ⟨i, hi⟩ ⟨j, hj⟩ hij
  simp only [length_map] at hi hj
  have hpos := forall_mem_zipIdx'.mp h.position
  have h1 := hpos i hi
  simp only [getElem_map] at hij
  rw [hij, hpos j hj] at h1
  simpa using (Option.some.inj h1).symm

/-- A permutation of all phases meets every phase that belongs to the graph. -/
theorem OrderedBindings.Lists.exists_position
    (h : s.Lists graphOwner phaseCount bindings t order.zipIdx) (hlen : order.length = phaseCount)
    {p : PhaseHandle} (hp : p.belongs graphOwner phaseCount = true) : p ∈ order := by
  have hsub : order.map (·.index) ⊆ range phaseCount := by
    intro v hv
    obtain ⟨q, hq, rfl⟩ := mem_map.mp hv
    obtain ⟨i, hi, rfl⟩ := getElem_of_mem hq
    have := forall_mem_zipIdx'.mp h.belongs i hi
    exact mem_range.mpr (PhaseHandle.belongs_iff.mp this).2.2
  have hperm : (order.map (·.index)).Perm (range phaseCount) :=
    (subperm_of_subset h.nodup_index hsub).perm_of_length_le (by simp [hlen])
  have hmem : p.index ∈ order.map (·.index) :=
    hperm.mem_iff.mpr (mem_range.mpr (PhaseHandle.belongs_iff.mp hp).2.2)
  obtain ⟨q, hq, hidx⟩ := mem_map.mp hmem
  obtain ⟨i, hi, rfl⟩ := getElem_of_mem hq
  have hbel := forall_mem_zipIdx'.mp h.belongs i hi
  rw [← PhaseHandle.belongs_inj hbel hp hidx]
  exact hq

/-! ## The release table -/

theorem releaseEntries_eq_ok {bindings : List CompiledRateBinding} {domain : RateDomainSpec}
    {domainIndex sequence : ℕ} {entries : List ReferenceRelease} :
    releaseEntries bindings domain domainIndex sequence = .ok entries ↔
      sequence * domain.periodNs.toNat + domain.relativeDeadlineNs.toNat ≤ u64Max ∧
      entries = (bindings.filter (fun b => b.domain.index = domainIndex)).flatMap
        fun b => (range domain.substepCount.toNat).map
          (makeRelease domain domainIndex sequence (sequence * domain.periodNs.toNat)
            (sequence * domain.periodNs.toNat + domain.relativeDeadlineNs.toNat) b) := by
  unfold releaseEntries
  simp only [bind_eq_ok, orReject_eq_ok, checkedMultiply_eq_some,
    checkedAdd_eq_some (toNat_le_u64Max _)]
  refine ⟨?_, ?_⟩
  · rintro ⟨_, ⟨_, rfl⟩, _, ⟨hle, rfl⟩, h⟩
    exact ⟨hle, (Except.ok.inj h).symm⟩
  · rintro ⟨hle, rfl⟩
    exact ⟨_, ⟨by omega, rfl⟩, _, ⟨hle, rfl⟩, rfl⟩

section Releases

variable {supercycle : ℕ} {domains : List RateDomainSpec} {bindings : List CompiledRateBinding}
  {releases : List ReferenceRelease}

section

variable (h : generateReleases supercycle domains bindings = .ok releases)
include h

/-- Every deadline of a successful generation fits 64 bits. -/
theorem deadline_le_of_generateReleases {i : ℕ} {d : RateDomainSpec}
    (hd : domains[i]? = some d) {k : ℕ} (hk : k < supercycle / d.periodNs.toNat) :
    k * d.periodNs.toNat + d.relativeDeadlineNs.toNat ≤ u64Max := by
  obtain ⟨hall, -⟩ := collectM_eq_ok.mp h
  obtain ⟨y, hy⟩ := hall (d, i) (mem_zipIdx_iff_getElem?.mpr hd)
  obtain ⟨hseq, -⟩ := collectM_eq_ok.mp hy
  obtain ⟨z, hz⟩ := hseq k (mem_range.mpr hk)
  exact (releaseEntries_eq_ok.mp hz).1

/-- The generated entries, as one expression. -/
theorem generateReleases_eq : releases = domains.zipIdx.flatMap fun e =>
      (range (supercycle / e.1.periodNs.toNat)).flatMap fun k =>
        (bindings.filter (fun b => b.domain.index = e.2)).flatMap fun b =>
          (range e.1.substepCount.toNat).map
            (makeRelease e.1 e.2 k (k * e.1.periodNs.toNat)
              (k * e.1.periodNs.toNat + e.1.relativeDeadlineNs.toNat) b) := by
  obtain ⟨hall, hrel⟩ := collectM_eq_ok.mp h
  rw [hrel]
  refine flatMap_congr fun e he => ?_
  obtain ⟨y, hy⟩ := hall e he
  rw [hy]
  obtain ⟨hseq, rfl⟩ := collectM_eq_ok.mp hy
  refine flatMap_congr fun k hk => ?_
  obtain ⟨z, hz⟩ := hseq k hk
  rw [hz]
  exact (releaseEntries_eq_ok.mp hz).2

theorem mem_generateReleases {r : ReferenceRelease} : r ∈ releases ↔
      ∃ i d k b s, domains[i]? = some d ∧ k < supercycle / d.periodNs.toNat ∧ b ∈ bindings ∧
        b.domain.index = i ∧ s < d.substepCount.toNat ∧
        r = makeRelease d i k (k * d.periodNs.toNat)
          (k * d.periodNs.toNat + d.relativeDeadlineNs.toNat) b s := by
  rw [generateReleases_eq h]
  simp only [mem_flatMap, Prod.exists, mem_zipIdx_iff_getElem?, mem_range,
    mem_filter, decide_eq_true_eq, mem_map]
  refine ⟨?_, ?_⟩
  · rintro ⟨d, i, hd, k, hk, b, ⟨hb, hbi⟩, s, hs, rfl⟩
    exact ⟨i, d, k, b, s, hd, hk, hb, hbi, hs, rfl⟩
  · rintro ⟨i, d, k, b, s, hd, hk, hb, hbi, hs, rfl⟩
    exact ⟨d, i, hd, k, hk, b, ⟨hb, hbi⟩, s, hs, rfl⟩

end

/-- Equal keys mean equal times, domains, phase positions and substeps. -/
theorem ReferenceRelease.key_eq_iff {a b : ReferenceRelease} : a.key = b.key ↔
    a.releaseTimeNs = b.releaseTimeNs ∧ a.domainRegistrationIndex = b.domainRegistrationIndex ∧
      a.compiledPhaseIndex = b.compiledPhaseIndex ∧ a.substepOrdinal = b.substepOrdinal := by
  simp only [ReferenceRelease.key, EmbeddingLike.apply_eq_iff_eq, Prod.mk.injEq,
    UInt64.toNat_inj, UInt32.toNat_inj]

/-- The exact times and substep of an entry within the 64-bit range. -/
theorem makeRelease_exact {i k : ℕ} {b : CompiledRateBinding} {s : ℕ}
    (hle : k * d.periodNs.toNat + d.relativeDeadlineNs.toNat ≤ u64Max)
    (hperiod : 0 < d.periodNs.toNat) (hs : s < d.substepCount.toNat) :
    let r := makeRelease d i k (k * d.periodNs.toNat)
      (k * d.periodNs.toNat + d.relativeDeadlineNs.toNat) b s
    r.releaseTimeNs.toNat = k * d.periodNs.toNat ∧
      r.deadlineTimeNs.toNat = k * d.periodNs.toNat + d.relativeDeadlineNs.toNat ∧
      r.domainReleaseSequence.toNat = k ∧ r.substepOrdinal.toNat = s := by
  have hk : k ≤ k * d.periodNs.toNat := Nat.le_mul_of_pos_right k hperiod
  refine ⟨toNat_ofNat_of_le (by omega), toNat_ofNat_of_le hle, toNat_ofNat_of_le (by omega), ?_⟩
  have hlt := d.substepCount.toNat_lt
  exact UInt32.toNat_ofNat_of_lt' (hs.trans hlt)

/-- No two generated entries have the same key. -/
theorem key_ne_generateReleases (h : generateReleases supercycle domains bindings = .ok releases)
    (hperiod : ∀ d ∈ domains, 0 < d.periodNs.toNat)
    (hbindings : bindings.Pairwise (fun b c => b.compiledPhaseIndex ≠ c.compiledPhaseIndex)) :
    releases.Pairwise (fun a b => a.key ≠ b.key) := by
  have hexact : ∀ e ∈ domains.zipIdx, ∀ k ∈ range (supercycle / e.1.periodNs.toNat),
      k * e.1.periodNs.toNat + e.1.relativeDeadlineNs.toNat ≤ u64Max ∧ 0 < e.1.periodNs.toNat := by
    intro e he k hk
    have he' := mem_zipIdx_iff_getElem?.mp he
    exact ⟨deadline_le_of_generateReleases h he' (mem_range.mp hk),
      hperiod e.1 (mem_of_getElem? he')⟩
  rw [generateReleases_eq h]
  simp only [pairwise_flatMap, pairwise_map, mem_flatMap, mem_map,
    forall_exists_index, and_imp, ne_eq, ReferenceRelease.key_eq_iff, not_and]
  refine ⟨fun e he => ⟨fun k hk => ⟨fun b _ => ?_, ?_⟩, ?_⟩, ?_⟩
  · -- one phase: the substeps differ
    obtain ⟨hle, hpos⟩ := hexact e he k hk
    refine nodup_range.imp_of_mem fun {s t} hs ht hst _ _ _ heq => hst ?_
    have h1 := (makeRelease_exact (i := e.2) (b := b) hle hpos (mem_range.mp hs)).2.2.2
    have h2 := (makeRelease_exact (i := e.2) (b := b) hle hpos (mem_range.mp ht)).2.2.2
    rw [← h1, ← h2, heq]
  · -- one release: the positions of the phases differ
    refine (hbindings.filter _).imp fun hbc x s _ hx y t _ hy _ _ hpos => ?_
    rw [← hx, ← hy] at hpos
    exact absurd hpos hbc
  · -- one domain: the release times differ
    refine nodup_range.imp_of_mem fun {k l} hk hl hkl x b _ s hs hx y c _ t ht hy htime => ?_
    obtain ⟨hle, hpos⟩ := hexact e he k hk
    obtain ⟨hle', -⟩ := hexact e he l hl
    have h1 := (makeRelease_exact (i := e.2) (b := b) hle hpos (mem_range.mp hs)).1
    have h2 := (makeRelease_exact (i := e.2) (b := c) hle' hpos (mem_range.mp ht)).1
    rw [hx] at h1
    rw [hy, ← htime, h1] at h2
    exact absurd (Nat.eq_of_mul_eq_mul_right hpos h2) hkl
  · -- the domains differ
    have hidx : (domains.zipIdx.map Prod.snd).Nodup := by
      rw [zipIdx_map_snd]
      exact nodup_range'
    rw [nodup_iff_pairwise_ne, pairwise_map] at hidx
    refine hidx.imp fun hef x k _ b _ s _ hx y l _ c _ t _ hy _ hdom => ?_
    rw [← hx, ← hy] at hdom
    exact absurd hdom hef

theorem length_sortReleases : (sortReleases releases).length = releases.length :=
  length_insertionSort _ _

theorem mem_sortReleases {r : ReferenceRelease} : r ∈ sortReleases releases ↔ r ∈ releases :=
  (perm_insertionSort _ releases).mem_iff

/-- Sorting entries with distinct keys gives a strictly increasing table. -/
theorem sortReleases_strict (h : releases.Pairwise (fun a b => a.key ≠ b.key)) :
    (sortReleases releases).Pairwise (fun a b => a.key < b.key) := by
  have htotal : Std.Total (fun a b : ReferenceRelease => a.key ≤ b.key) :=
    ⟨fun a b => le_total a.key b.key⟩
  have htrans : IsTrans ReferenceRelease (fun a b => a.key ≤ b.key) :=
    ⟨fun _ _ _ => le_trans⟩
  have hle : (sortReleases releases).Pairwise (fun a b => a.key ≤ b.key) :=
    pairwise_insertionSort _ releases
  have hne : (sortReleases releases).Pairwise (fun a b => a.key ≠ b.key) :=
    ((perm_insertionSort _ releases).pairwise_iff fun hab => Ne.symm hab).mpr h
  exact hle.imp₂ (fun _ _ h1 h2 => lt_of_le_of_ne h1 h2) hne

end Releases

/-! ## The facts about a compiled plan -/

/-- The entry of a compiled domain `d` for one sequence number, bound phase and substep. -/
def CompiledRateDomain.release (d : CompiledRateDomain) (k : ℕ) (b : CompiledRateBinding)
    (s : ℕ) : ReferenceRelease where
  releaseTimeNs := UInt64.ofNat (k * d.periodNs.toNat)
  domain := b.domain
  domainRegistrationIndex := d.registrationIndex
  domainReleaseSequence := UInt64.ofNat k
  phase := b.phase
  phaseKind := b.phaseKind
  compiledPhaseIndex := b.compiledPhaseIndex
  substepOrdinal := UInt32.ofNat s
  substepCount := d.substepCount
  relativeDeadlineNs := d.relativeDeadlineNs
  deadlineTimeNs := UInt64.ofNat (k * d.periodNs.toNat + d.relativeDeadlineNs.toNat)
  budgetWcetNs := d.budgetWcetNs
  criticality := d.criticality
  optional := d.optional
  lateAction := d.lateAction
  boundedCatchUpLimit := d.boundedCatchUpLimit

/-- A plan as `compile_rate_timeline` produces it from at least one domain. -/
structure IsTimeline (plan : CompiledRatePlan) : Prop where
  domains_ne : plan.domains ≠ []
  supercycle_pos : 0 < plan.supercycleNs.toNat
  /-- domains are stored by registration index -/
  domain_index : ∀ i (d : CompiledRateDomain), plan.domains[i]? = some d →
    d.registrationIndex = i ∧ d.domain.index = i
  period_pos : ∀ d ∈ plan.domains, 0 < d.periodNs.toNat
  substeps_pos : ∀ d ∈ plan.domains, 0 < d.substepCount.toNat
  /-- every period divides the supercycle -/
  releases_mul : ∀ d ∈ plan.domains,
    d.releasesPerSupercycle.toNat * d.periodNs.toNat = plan.supercycleNs.toNat
  deadline_le : ∀ d ∈ plan.domains, ∀ k < d.releasesPerSupercycle.toNat,
    k * d.periodNs.toNat + d.relativeDeadlineNs.toNat ≤ u64Max
  binding_index : ∀ i (b : CompiledRateBinding), plan.bindings[i]? = some b → b.compiledPhaseIndex = i
  binding_domain : ∀ b ∈ plan.bindings, b.domain.index < plan.domains.length
  binding_kind : ∀ b ∈ plan.bindings, b.phaseKind = .cpu ∨ b.phaseKind = .device
  /-- one binding for each registered phase -/
  binding_registration : (plan.bindings.map (·.phase.index)).Nodup
  /-- no domain is empty -/
  domain_bound : ∀ i < plan.domains.length, ∃ b ∈ plan.bindings, b.domain.index = i
  mem_releases : ∀ r, r ∈ plan.releases ↔ ∃ i d k b s, plan.domains[i]? = some d ∧
    k < d.releasesPerSupercycle.toNat ∧ b ∈ plan.bindings ∧ b.domain.index = i ∧
    s < d.substepCount.toNat ∧ r = d.release k b s
  sorted : plan.releases.Pairwise (fun a b => a.key < b.key)
  releases_le : plan.releases.length ≤ referenceReleaseCapacity

theorem IsTimeline.binding_phase {plan : CompiledRatePlan} (h : IsTimeline plan) :
    (plan.bindings.map (·.phase)).Nodup := by
  have hreg := h.binding_registration
  rw [show (fun b : CompiledRateBinding => b.phase.index) = PhaseHandle.index ∘ (·.phase) from rfl,
    ← map_map] at hreg
  exact hreg.of_map _

/-- Every release lies within the supercycle. -/
theorem IsTimeline.releaseTime_lt {plan : CompiledRatePlan} (h : IsTimeline plan)
    {r : ReferenceRelease} (hr : r ∈ plan.releases) :
    r.releaseTimeNs.toNat < plan.supercycleNs.toNat := by
  obtain ⟨i, d, k, b, s, hd, hk, -, -, -, rfl⟩ := (h.mem_releases r).mp hr
  have hmem := mem_of_getElem? hd
  have hle := h.deadline_le d hmem k hk
  have htime : (d.release k b s).releaseTimeNs.toNat = k * d.periodNs.toNat :=
    toNat_ofNat_of_le (by omega)
  rw [htime, ← h.releases_mul d hmem]
  exact Nat.mul_lt_mul_of_pos_right hk (h.period_pos d hmem)

theorem RateBindingSpec.wellFormed_iff {owner : UInt32} {n m : ℕ} {b : RateBindingSpec} :
    b.wellFormed owner n m = true ↔ b.phase.belongs owner n = true ∧
      b.domain.belongs owner m = true ∧ (b.phaseKind = .cpu ∨ b.phaseKind = .device) := by
  simp [RateBindingSpec.wellFormed, PhaseHandle.belongs, and_assoc]

/-- The counting loop adds the entries of the domains, within the capacity. -/
theorem countReleases_spec {supercycle count : ℕ} {tables : BindingTables}
    {domains : List (RateDomainSpec × ℕ)}
    (h : domains.foldlM (countReleases supercycle tables) 0 = .ok count) :
    count = (domains.map fun e => supercycle / e.1.periodNs.toNat * tables.phasesPerDomain e.2 *
      e.1.substepCount.toNat).sum ∧ count ≤ referenceReleaseCapacity := by
  refine foldlM_invariant (P := fun done n => n = (done.map fun e =>
    supercycle / e.1.periodNs.toNat * tables.phasesPerDomain e.2 * e.1.substepCount.toNat).sum ∧
      n ≤ referenceReleaseCapacity) h ⟨rfl, Nat.zero_le _⟩ ?_
  rintro done ⟨d, i⟩ rest n n' - ⟨rfl, -⟩ hstep
  simp only [countReleases, bind_eq_ok, orReject_eq_ok, reject_eq_ok, Unique.exists_iff] at hstep
  obtain ⟨total, htotal, hle, hstep⟩ := hstep
  cases hstep
  refine ⟨?_, Nat.le_of_not_lt hle⟩
  simp only [checkedReleaseCount, Option.bind_eq_bind, Option.bind_eq_some_iff,
    checkedMultiply_eq_some] at htotal
  obtain ⟨_, ⟨-, rfl⟩, _, ⟨hfit, rfl⟩, hadd⟩ := htotal
  obtain ⟨-, rfl⟩ := (checkedAdd_eq_some hfit).mp hadd
  simp

section Plan

variable {graphOwner : UInt32} {phaseCount : ℕ} {compiledOrder : List PhaseHandle}
  {domains : List RateDomainSpec} {bindings : List RateBindingSpec} {plan : CompiledRatePlan}

/-- The parts of a successful compilation. -/
structure CompiledParts (graphOwner : UInt32) (phaseCount : ℕ) (compiledOrder : List PhaseHandle)
    (domains : List RateDomainSpec) (bindings : List RateBindingSpec) (tables : BindingTables)
    (supercycle : ℕ) (ordered : OrderedBindings) (releases : List ReferenceRelease) : Prop where
  domains_le : domains.length ≤ rateDomainCapacity
  order_length : compiledOrder.length = phaseCount
  records : tables.Records graphOwner phaseCount domains.length bindings.zipIdx
  bound : ∀ p < phaseCount, tables.bindingByPhase p ≠ none
  nonempty : ∀ d < domains.length, tables.phasesPerDomain d ≠ 0
  supercycle_eq : supercycle = (domains.map (·.periodNs.toNat)).foldl Nat.lcm 1
  supercycle_le : supercycle ≤ u64Max
  wellFormed : ∀ d ∈ domains, d.wellFormed = true
  lists : ordered.Lists graphOwner phaseCount bindings tables compiledOrder.zipIdx
  releases_eq : generateReleases supercycle domains ordered.bindings = .ok releases
  counted : ∃ count, domains.zipIdx.foldlM (countReleases supercycle tables) 0 = .ok count

/-- The plan assembled from the parts. -/
def assemblePlan (graphOwner : UInt32) (domains : List RateDomainSpec) (supercycle : ℕ)
    (ordered : OrderedBindings) (releases : List ReferenceRelease) : CompiledRatePlan where
  supercycleNs := UInt64.ofNat supercycle
  domains := domains.zipIdx.map
    (compileDomain graphOwner supercycle (domains.headD {}).periodNs.toNat)
  bindings := ordered.bindings
  releases := sortReleases releases

theorem compileTimelinePlan_parts
    (h : compileTimelinePlan graphOwner phaseCount compiledOrder domains bindings = .ok plan) :
    ∃ tables supercycle ordered releases,
      CompiledParts graphOwner phaseCount compiledOrder domains bindings tables supercycle ordered
        releases ∧ plan = assemblePlan graphOwner domains supercycle ordered releases := by
  simp only [compileTimelinePlan, bind_eq_ok, reject_eq_ok, Unique.exists_iff] at h
  obtain ⟨hcap, hsizes, tables, htables, hown, supercycle, hsuper, count, hcount, ordered,
    hordered, releases, hreleases, h⟩ := h
  push Not at hcap hsizes hown
  obtain ⟨hseq, hle, hwf⟩ := supercycle_spec hsuper
  refine ⟨tables, supercycle, ordered, releases, ⟨hcap, hsizes.2.1, recordBindings_spec htables,
    hown.1, hown.2, hseq, hle, hwf, orderBindings_spec hordered, hreleases, count, hcount⟩, ?_⟩
  exact (Except.ok.inj h).symm

namespace CompiledParts

variable {tables : BindingTables} {supercycle : ℕ} {ordered : OrderedBindings}
  {releases : List ReferenceRelease}
  (h : CompiledParts graphOwner phaseCount compiledOrder domains bindings tables supercycle ordered
    releases)
include h

theorem binding_wellFormed {b : RateBindingSpec} (hb : b ∈ bindings) :
    b.wellFormed graphOwner phaseCount domains.length = true := by
  obtain ⟨i, hi, rfl⟩ := getElem_of_mem hb
  exact forall_mem_zipIdx'.mp h.records.wellFormed i hi

/-- The compiled binding at one position is that of the phase's own binding. -/
theorem compiledBinding_eq {e : PhaseHandle × ℕ} (he : e ∈ compiledOrder.zipIdx) :
    ∃ b ∈ bindings, b.phase = e.1 ∧
      compiledBinding bindings tables e = ⟨b.phase, b.domain, b.phaseKind, e.2⟩ := by
  have hbel := h.lists.belongs e he
  obtain ⟨i, hi⟩ := Option.ne_none_iff_exists'.mp
    (h.bound e.1.index (PhaseHandle.belongs_iff.mp hbel).2.2)
  obtain ⟨⟨b, j⟩, hb, hidx, rfl⟩ := h.records.owned _ _ hi
  have hget := mem_zipIdx_iff_getElem?.mp hb
  have hphase : b.phase = e.1 := PhaseHandle.belongs_inj
    (RateBindingSpec.wellFormed_iff.mp (h.records.wellFormed _ hb)).1 hbel hidx
  refine ⟨b, mem_of_getElem? hget, hphase, ?_⟩
  rw [compiledBinding, hi, Option.getD_some, getD_eq_getElem?_getD, hget, hphase]
  rfl

variable {c : CompiledRateBinding}

/-- Compiled bindings and registered bindings correspond. -/
theorem mem_ordered : c ∈ ordered.bindings ↔
    ∃ b ∈ bindings, c.phase = b.phase ∧ c.domain = b.domain ∧ c.phaseKind = b.phaseKind ∧
      compiledOrder[c.compiledPhaseIndex]? = some c.phase := by
  rw [h.lists.bindings_eq, mem_map]
  refine ⟨?_, ?_⟩
  · rintro ⟨e, he, rfl⟩
    obtain ⟨b, hb, hphase, heq⟩ := h.compiledBinding_eq he
    rw [heq]
    exact ⟨b, hb, rfl, rfl, rfl, hphase ▸ mem_zipIdx_iff_getElem?.mp he⟩
  · rintro ⟨b, hb, hphase, hdomain, hkind, hpos⟩
    have he : (c.phase, c.compiledPhaseIndex) ∈ compiledOrder.zipIdx :=
      mem_zipIdx_iff_getElem?.mpr hpos
    refine ⟨(c.phase, c.compiledPhaseIndex), he, ?_⟩
    obtain ⟨b', hb', hphase', heq⟩ := h.compiledBinding_eq he
    -- one phase has one binding
    have hsame : b' = b := by
      obtain ⟨i, hi, rfl⟩ := getElem_of_mem hb
      obtain ⟨j, hj, rfl⟩ := getElem_of_mem hb'
      have h1 := forall_mem_zipIdx'.mp h.records.binding i hi
      have h2 := forall_mem_zipIdx'.mp h.records.binding j hj
      simp only [hphase'] at h2
      simp only [← hphase] at h1
      rw [h1] at h2
      obtain rfl := Option.some.inj h2
      rfl
    rw [heq, hsame, ← hphase, ← hdomain, ← hkind]

theorem ordered_index {i : ℕ} (hc : ordered.bindings[i]? = some c) :
    c.compiledPhaseIndex = i := by
  rw [h.lists.bindings_eq, List.getElem?_map, List.getElem?_zipIdx, Option.map_map,
    Option.map_eq_some_iff] at hc
  obtain ⟨p, -, rfl⟩ := hc
  simp [compiledBinding]

theorem supercycle_pos : 0 < supercycle := by
  rw [h.supercycle_eq]
  refine foldl_lcm_pos _ (fun x hx => ?_) 1 Nat.one_pos
  obtain ⟨d, hd, rfl⟩ := mem_map.mp hx
  exact (RateDomainSpec.wellFormed_iff.mp (h.wellFormed d hd)).1

theorem period_dvd (hd : d ∈ domains) : d.periodNs.toNat ∣ supercycle := by
  rw [h.supercycle_eq]
  exact (dvd_foldl_lcm _ 1).2 _ (mem_map_of_mem hd)

omit h in
/-- Each compiled domain with the domain it was compiled from. -/
theorem getElem?_domains {i : ℕ} {c : CompiledRateDomain} :
    (assemblePlan graphOwner domains supercycle ordered releases).domains[i]? = some c ↔
      ∃ d, domains[i]? = some d ∧
        c = compileDomain graphOwner supercycle (domains.headD {}).periodNs.toNat (d, i) := by
  rw [assemblePlan, List.getElem?_map, List.getElem?_zipIdx, Option.map_map,
    Option.map_eq_some_iff]
  simp [eq_comm]

theorem releasesPerSupercycle_toNat {i : ℕ} :
    (compileDomain graphOwner supercycle (domains.headD {}).periodNs.toNat
      (d, i)).releasesPerSupercycle.toNat = supercycle / d.periodNs.toNat :=
  toNat_ofNat_of_le ((Nat.div_le_self _ _).trans h.supercycle_le)

/-- A phase has one compiled binding. -/
theorem ordered_ext {c' : CompiledRateBinding} (hc : c ∈ ordered.bindings)
    (hc' : c' ∈ ordered.bindings) (hphase : c.phase = c'.phase) : c = c' := by
  obtain ⟨-, -, -, -, -, hpos⟩ := h.mem_ordered.mp hc
  obtain ⟨-, -, -, -, -, hpos'⟩ := h.mem_ordered.mp hc'
  obtain ⟨i, hi⟩ := mem_iff_getElem?.mp hc
  obtain ⟨j, hj⟩ := mem_iff_getElem?.mp hc'
  rw [h.ordered_index hi] at hpos
  rw [h.ordered_index hj, ← hphase] at hpos'
  obtain ⟨hil, hie⟩ := List.getElem?_eq_some_iff.mp hpos
  obtain ⟨hjl, hje⟩ := List.getElem?_eq_some_iff.mp hpos'
  obtain rfl : i = j :=
    ((h.lists.nodup_index.of_map _).getElem_inj_iff).mp (hie.trans hje.symm)
  exact Option.some.inj (hi.symm.trans hj)

theorem ordered_phases : ordered.bindings.map (·.phase) = compiledOrder := by
  rw [h.lists.bindings_eq, map_map]
  exact zipIdx_map_fst 0 compiledOrder

theorem ordered_registration : (ordered.bindings.map (·.phase.index)).Nodup := by
  have hindex := h.lists.nodup_index
  rw [← h.ordered_phases, map_map] at hindex
  exact hindex

/-- The compiled bindings of a domain are among its registered ones. -/
theorem length_bindings_le (i : ℕ) :
    (ordered.bindings.filter (fun b => b.domain.index = i)).length ≤ tables.phasesPerDomain i := by
  have hnodup : ((ordered.bindings.filter fun b => b.domain.index = i).map (·.phase)).Nodup := by
    refine Nodup.sublist (filter_sublist.map _) ?_
    rw [h.ordered_phases]
    exact h.lists.nodup_index.of_map _
  have hsub : (ordered.bindings.filter fun b => b.domain.index = i).map (·.phase) ⊆
      (bindings.zipIdx.filter fun e => e.1.domain.index = i).map (·.1.phase) := by
    intro p hp
    obtain ⟨c, hc, rfl⟩ := mem_map.mp hp
    obtain ⟨hc, hci⟩ := mem_filter.mp hc
    obtain ⟨b, hb, hphase, hdomain, -, -⟩ := h.mem_ordered.mp hc
    obtain ⟨j, hj⟩ := mem_iff_getElem?.mp hb
    refine mem_map.mpr ⟨(b, j), mem_filter.mpr ⟨?_, ?_⟩, hphase.symm⟩
    · exact mem_zipIdx_iff_getElem?.mpr hj
    · simpa [hdomain] using hci
  rw [h.records.count, countP_eq_length_filter]
  have hlen := (subperm_of_subset hnodup hsub).length_le
  simpa using hlen

/-- The table holds at most as many entries as were counted. -/
theorem length_releases_le : releases.length ≤ referenceReleaseCapacity := by
  obtain ⟨count, hcount⟩ := h.counted
  obtain ⟨hsum, hle⟩ := countReleases_spec hcount
  rw [generateReleases_eq h.releases_eq, length_flatMap]
  refine le_trans (sum_le_sum fun e _ => ?_) (hsum.symm.le.trans hle)
  rw [length_flatMap]
  simp only [length_flatMap, length_map, length_range, map_const',
    sum_replicate, smul_eq_mul]
  rw [mul_assoc]
  exact Nat.mul_le_mul_left _ (Nat.mul_le_mul_right _ (h.length_bindings_le e.2))

theorem ordered_pairwise_index : ordered.bindings.Pairwise
    (fun b c => b.compiledPhaseIndex ≠ c.compiledPhaseIndex) := by
  rw [pairwise_iff_getElem]
  intro i j hi hj hij
  rw [h.ordered_index (List.getElem?_eq_getElem hi), h.ordered_index (List.getElem?_eq_getElem hj)]
  exact hij.ne

/-- The sorted table is strictly increasing. -/
theorem sorted : (sortReleases releases).Pairwise (fun a b => a.key < b.key) :=
  sortReleases_strict (key_ne_generateReleases h.releases_eq
    (fun d hd => (RateDomainSpec.wellFormed_iff.mp (h.wellFormed d hd)).1)
    h.ordered_pairwise_index)

/-- The assembled plan has all the facts of a timeline. -/
theorem isTimeline (hne : domains ≠ []) :
    IsTimeline (assemblePlan graphOwner domains supercycle ordered releases) where
  domains_ne := by simpa [assemblePlan] using hne
  supercycle_pos := by
    rw [assemblePlan, toNat_ofNat_of_le h.supercycle_le]
    exact h.supercycle_pos
  domain_index := by
    intro i c hc
    obtain ⟨d, hd, rfl⟩ := getElem?_domains.mp hc
    refine ⟨rfl, ?_⟩
    have hi : i < 64 := (List.getElem?_eq_some_iff.mp hd).1.trans_le h.domains_le
    have hval : (UInt32.ofNat i).toNat = i :=
      UInt32.toNat_ofNat_of_lt' (hi.trans (by decide))
    have hidx : (RateDomainHandle.make graphOwner (UInt32.ofNat i)).index = (UInt32.ofNat i).toNat :=
      RateDomainHandle.make_index (by rw [hval]; omega)
    exact hidx.trans hval
  period_pos := by
    intro c hc
    obtain ⟨i, hi⟩ := mem_iff_getElem?.mp hc
    obtain ⟨d, hd, rfl⟩ := getElem?_domains.mp hi
    exact (RateDomainSpec.wellFormed_iff.mp (h.wellFormed d (mem_of_getElem? hd))).1
  substeps_pos := by
    intro c hc
    obtain ⟨i, hi⟩ := mem_iff_getElem?.mp hc
    obtain ⟨d, hd, rfl⟩ := getElem?_domains.mp hi
    exact (RateDomainSpec.wellFormed_iff.mp (h.wellFormed d (mem_of_getElem? hd))).2.1
  releases_mul := by
    intro c hc
    obtain ⟨i, hi⟩ := mem_iff_getElem?.mp hc
    obtain ⟨d, hd, rfl⟩ := getElem?_domains.mp hi
    rw [h.releasesPerSupercycle_toNat, assemblePlan, toNat_ofNat_of_le h.supercycle_le]
    exact Nat.div_mul_cancel (h.period_dvd (mem_of_getElem? hd))
  deadline_le := by
    intro c hc k hk
    obtain ⟨i, hi⟩ := mem_iff_getElem?.mp hc
    obtain ⟨d, hd, rfl⟩ := getElem?_domains.mp hi
    rw [h.releasesPerSupercycle_toNat] at hk
    exact deadline_le_of_generateReleases h.releases_eq hd hk
  binding_index := fun i b hb => h.ordered_index hb
  binding_domain := by
    intro c hc
    obtain ⟨b, hb, -, hdom, -, -⟩ := h.mem_ordered.mp hc
    have := (RateBindingSpec.wellFormed_iff.mp (h.binding_wellFormed hb)).2.1
    simp only [RateDomainHandle.belongs, Bool.and_eq_true, decide_eq_true_eq] at this
    rw [hdom]
    simpa [assemblePlan] using this.2
  binding_kind := by
    intro c hc
    obtain ⟨b, hb, -, -, hkind, -⟩ := h.mem_ordered.mp hc
    rw [hkind]
    exact (RateBindingSpec.wellFormed_iff.mp (h.binding_wellFormed hb)).2.2
  binding_registration := h.ordered_registration
  domain_bound := by
    intro i hi
    have hcount := h.nonempty i (by simpa [assemblePlan] using hi)
    rw [h.records.count] at hcount
    obtain ⟨⟨b, j⟩, hb, hbi⟩ := countP_pos_iff.mp (Nat.pos_of_ne_zero hcount)
    have hget := mem_zipIdx_iff_getElem?.mp hb
    have hwf := RateBindingSpec.wellFormed_iff.mp (h.records.wellFormed _ hb)
    obtain ⟨p, hp⟩ := mem_iff_getElem?.mp (h.lists.exists_position h.order_length hwf.1)
    exact ⟨⟨b.phase, b.domain, b.phaseKind, p⟩, h.mem_ordered.mpr
      ⟨b, mem_of_getElem? hget, rfl, rfl, rfl, hp⟩, of_decide_eq_true hbi⟩
  mem_releases := by
    intro r
    change r ∈ sortReleases releases ↔ _
    rw [mem_sortReleases, mem_generateReleases h.releases_eq]
    refine ⟨?_, ?_⟩
    · rintro ⟨i, d, k, b, s, hd, hk, hb, hbi, hs, rfl⟩
      refine ⟨i, _, k, b, s, getElem?_domains.mpr ⟨d, hd, rfl⟩, ?_, hb, hbi, hs, rfl⟩
      rwa [h.releasesPerSupercycle_toNat]
    · rintro ⟨i, c, k, b, s, hc, hk, hb, hbi, hs, rfl⟩
      obtain ⟨d, hd, rfl⟩ := getElem?_domains.mp hc
      rw [h.releasesPerSupercycle_toNat] at hk
      exact ⟨i, d, k, b, s, hd, hk, hb, hbi, hs, rfl⟩
  sorted := h.sorted
  releases_le := length_sortReleases.trans_le h.length_releases_le

end CompiledParts

/-- The failures of a computation never carry the status `ok`. -/
abbrev NeverOk {α : Type} (x : Except RateCompileDiagnostic α) : Prop :=
  ErrorsSatisfy (fun d => d.status ≠ .ok) x

/-- A failed check never reports `ok`. -/
theorem compileTimelinePlan_errors :
    NeverOk (compileTimelinePlan graphOwner phaseCount compiledOrder domains bindings) := by
  refine .check (by decide) (.check (by decide) ?_)
  refine .bind (.foldlM fun t e _ => .check (by decide) (.check (by decide) (.ok _)))
    fun tables _ => ?_
  refine .check (by decide) (.bind (.foldlM fun t e _ => ?_) fun supercycle _ => ?_)
  · exact .check (by decide) (.check (by decide) (.orReject fun _ => by decide))
  refine .bind (.foldlM fun t e _ => ?_) fun _ _ => .bind (.foldlM fun t e _ => ?_) fun _ _ => ?_
  · exact .get (by decide) fun _ => .check (by decide) (.ok _)
  · exact .check (by decide) (.check (by decide) (.ok _))
  refine .bind (.foldlM fun _ e _ => .bind (.foldlM fun _ k _ => ?_) fun _ _ => .ok _)
    fun _ _ => .ok _
  exact .bind (.get (by decide) fun _ => .get (by decide) fun _ => .ok _) fun _ _ => .ok _

variable {output : CompiledRatePlan}

/-- A successful compilation of at least one domain went through `compileTimelinePlan`. -/
theorem compileRateTimeline_eq_ok (hne : domains ≠ [])
    (h : (compileRateTimeline graphOwner phaseCount compiledOrder domains bindings output).status =
      .ok) :
    compileTimelinePlan graphOwner phaseCount compiledOrder domains bindings =
      .ok (compileRateTimeline graphOwner phaseCount compiledOrder domains bindings
        output).output := by
  unfold compileRateTimeline at h ⊢
  rw [if_neg (by simpa using hne)] at h ⊢
  cases hc : compileTimelinePlan graphOwner phaseCount compiledOrder domains bindings with
  | ok candidate => rfl
  | error d =>
    rw [hc] at h
    exact absurd h (compileTimelinePlan_errors d hc)

theorem compileRateTimeline_isTimeline (hne : domains ≠ [])
    (h : (compileRateTimeline graphOwner phaseCount compiledOrder domains bindings output).status =
      .ok) :
    IsTimeline (compileRateTimeline graphOwner phaseCount compiledOrder domains bindings
      output).output := by
  obtain ⟨tables, supercycle, ordered, releases, hparts, hplan⟩ :=
    compileTimelinePlan_parts (compileRateTimeline_eq_ok hne h)
  rw [hplan]
  exact hparts.isTimeline hne

/-- Without domains only the empty plan is compiled. -/
theorem compileRateTimeline_nil
    (h : (compileRateTimeline graphOwner phaseCount compiledOrder [] bindings output).status =
      .ok) :
    (compileRateTimeline graphOwner phaseCount compiledOrder [] bindings output).output = {} := by
  cases bindings with
  | nil => rfl
  | cons b bindings => cases h

end Plan

/-- A timeline compiled from at least one domain has the least common multiple of the
periods as its supercycle, exactly one entry for each domain, sequence, bound phase and
substep, at the exact times, in strictly increasing order; a failed compilation leaves the
output as it was. -/
theorem compileRateTimeline_spec (graphOwner : UInt32) (phaseCount : ℕ)
    (compiledOrder : List PhaseHandle) (domains : List RateDomainSpec)
    (bindings : List RateBindingSpec) (output : CompiledRatePlan) :
    let result :=
      compileRateTimeline graphOwner phaseCount compiledOrder domains bindings output
    let supercycle := (domains.map (·.periodNs.toNat)).foldl Nat.lcm 1
    (result.status = .ok → domains ≠ [] →
      result.output.supercycleNs.toNat = supercycle ∧
      (∀ i d, domains[i]? = some d → ∀ k < supercycle / d.periodNs.toNat,
        ∀ b ∈ bindings, b.domain.index = i → ∀ s < d.substepCount.toNat,
          ∃! r, r ∈ result.output.releases ∧ r.domainRegistrationIndex = i ∧
            r.domainReleaseSequence.toNat = k ∧ r.phase = b.phase ∧ r.substepOrdinal.toNat = s) ∧
      (∀ r ∈ result.output.releases, ∃ d, domains[r.domainRegistrationIndex]? = some d ∧
        r.domainReleaseSequence.toNat < supercycle / d.periodNs.toNat ∧
        (∃ b ∈ bindings, b.phase = r.phase ∧ b.domain = r.domain ∧
          b.domain.index = r.domainRegistrationIndex) ∧
        r.substepOrdinal.toNat < d.substepCount.toNat ∧
        compiledOrder[r.compiledPhaseIndex]? = some r.phase ∧
        r.releaseTimeNs.toNat = r.domainReleaseSequence.toNat * d.periodNs.toNat ∧
        r.deadlineTimeNs.toNat = r.releaseTimeNs.toNat + d.relativeDeadlineNs.toNat) ∧
      result.output.releases.Pairwise (fun a b => a.key < b.key)) ∧
    (result.status ≠ .ok → result.output = output) := by
  intro result supercycle
  refine ⟨fun hok hne => ?_, fun hfail => ?_⟩
  · obtain ⟨tables, S, ordered, releases, hparts, hplan⟩ :=
      compileTimelinePlan_parts (compileRateTimeline_eq_ok hne hok)
    have hS : S = supercycle := hparts.supercycle_eq
    have hout : result.output = assemblePlan graphOwner domains S ordered releases := hplan
    rw [hout, ← hS]
    have hmem : ∀ {r}, r ∈ sortReleases releases ↔ _ := fun {r} =>
      mem_sortReleases.trans (mem_generateReleases hparts.releases_eq)
    have hperiod : ∀ {i : ℕ} {d : RateDomainSpec}, domains[i]? = some d → 0 < d.periodNs.toNat :=
      fun {i d} hd =>
        (RateDomainSpec.wellFormed_iff.mp (hparts.wellFormed d (mem_of_getElem? hd))).1
    have hdeadline := @deadline_le_of_generateReleases _ _ _ _ hparts.releases_eq
    refine ⟨toNat_ofNat_of_le hparts.supercycle_le, ?_, ?_, hparts.sorted⟩
    · -- existence and uniqueness of each entry
      intro i d hd k hk b hb hbi s hs
      have hwf := RateBindingSpec.wellFormed_iff.mp (hparts.binding_wellFormed hb)
      obtain ⟨p, hp⟩ := mem_iff_getElem?.mp
        (hparts.lists.exists_position hparts.order_length hwf.1)
      have hc : (⟨b.phase, b.domain, b.phaseKind, p⟩ : CompiledRateBinding) ∈ ordered.bindings :=
        hparts.mem_ordered.mpr ⟨b, hb, rfl, rfl, rfl, hp⟩
      have hexact := makeRelease_exact (i := i)
        (b := ⟨b.phase, b.domain, b.phaseKind, p⟩) (hdeadline hd hk) (hperiod hd) hs
      refine ⟨_, ⟨hmem.mpr ⟨i, d, k, _, s, hd, hk, hc, hbi, hs, rfl⟩, rfl, hexact.2.2.1, rfl,
        hexact.2.2.2⟩, ?_⟩
      rintro r ⟨hr, hri, hrk, hrp, hrs⟩
      obtain ⟨i', d', k', c, s', hd', hk', hc', hci', hs', rfl⟩ := hmem.mp hr
      obtain rfl : i' = i := hri
      obtain rfl : d' = d := Option.some.inj (hd'.symm.trans hd)
      have hexact' := makeRelease_exact (i := i') (b := c) (hdeadline hd' hk') (hperiod hd') hs'
      obtain rfl : k' = k := hexact'.2.2.1.symm.trans hrk
      obtain rfl : s' = s := hexact'.2.2.2.symm.trans hrs
      rw [hparts.ordered_ext hc' hc hrp]
    · intro r hr
      obtain ⟨i, d, k, c, s, hd, hk, hc, hci, hs, rfl⟩ := hmem.mp hr
      have hexact := makeRelease_exact (i := i) (b := c) (hdeadline hd hk) (hperiod hd) hs
      obtain ⟨b, hb, hphase, hdomain, -, hpos⟩ := hparts.mem_ordered.mp hc
      refine ⟨d, hd, ?_, ⟨b, hb, hphase.symm, hdomain.symm, hdomain ▸ hci⟩, ?_, hpos, ?_, ?_⟩
      · rw [hexact.2.2.1]
        exact hk
      · rw [hexact.2.2.2]
        exact hs
      · rw [hexact.1, hexact.2.2.1]
      · rw [hexact.2.1, hexact.1]
  · change (compileRateTimeline graphOwner phaseCount compiledOrder domains bindings
      output).output = output
    change (compileRateTimeline graphOwner phaseCount compiledOrder domains bindings
      output).status ≠ .ok at hfail
    unfold compileRateTimeline at hfail ⊢
    split
    · split
      · rfl
      · simp_all
    · cases hc : compileTimelinePlan graphOwner phaseCount compiledOrder domains bindings with
      | ok candidate => simp_all
      | error d => rfl

end RtRuntime
