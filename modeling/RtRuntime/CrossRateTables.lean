import RtRuntime.CrossRateSpec

/-!
# The stored tables of a channel

The selections of all channels stand in one list, two records for each consumer reference.
This file follows a record from the loops that build the tables to the place where
the runtime reads it, and puts the facts about single selections together.
-/

namespace RtRuntime

open CompiledCrossRateSelection CompiledRatePlan List

/-! ## Ordinals of a phase's references -/

/-- `consumer_ordinal`: the position of a release among the releases of its phase. -/
def ReferenceRelease.ordinal (r : ReferenceRelease) : ℕ :=
  r.domainReleaseSequence.toNat * r.substepCount.toNat + r.substepOrdinal.toNat

variable {k : ℕ}

theorem CompiledRateDomain.release_ordinal {d : CompiledRateDomain} {s : ℕ}
    (hk : k < d.releasesPerSupercycle.toNat) (hs : s < d.substepCount.toNat)
    (b : CompiledRateBinding) : (d.release k b s).ordinal = k * d.substepCount.toNat + s := by
  have hk' := toNat_le_u64Max d.releasesPerSupercycle
  have hk2 : (UInt64.ofNat k).toNat = k := toNat_ofNat_of_le (by omega)
  have hs2 : (UInt32.ofNat s).toNat = s :=
    UInt32.toNat_ofNat_of_lt' (hs.trans d.substepCount.toNat_lt)
  simp only [ReferenceRelease.ordinal, CompiledRateDomain.release, hk2, hs2]

namespace IsTimeline

variable {plan : CompiledRatePlan} (h : IsTimeline plan)
include h

/-- The releases of one phase stem from the same domain and binding. -/
theorem release_of_phase {r : ReferenceRelease} (hr : r ∈ plan.releases) :
    ∃ d ∈ plan.domains, ∃ b ∈ plan.bindings, plan.domains[b.domain.index]? = some d ∧
      b.phase = r.phase ∧ ∀ r' ∈ plan.releases, r'.phase = r.phase →
        ∃ k < d.releasesPerSupercycle.toNat, ∃ s < d.substepCount.toNat, r' = d.release k b s := by
  obtain ⟨i, d, k, b, s, hd, -, hb, rfl, -, rfl⟩ := (h.mem_releases r).mp hr
  refine ⟨d, mem_of_getElem? hd, b, hb, hd, rfl, fun r' hr' hphase => ?_⟩
  obtain ⟨i', d', k', b', s', hd', hk', hb', rfl, hs', rfl⟩ := (h.mem_releases r').mp hr'
  obtain rfl : b' = b := inj_on_of_nodup_map h.binding_phase hb' hb hphase
  obtain rfl := Option.some.inj (hd.symm.trans hd')
  exact ⟨k', hk', s', hs', rfl⟩

theorem ordinal_lt {i j : ℕ} (hij : i < j) (hj : j < plan.releases.length)
    (hphase : (plan.release i).phase = (plan.release j).phase) :
    (plan.release i).ordinal < (plan.release j).ordinal := by
  obtain ⟨d, hd, b, -, -, -, hall⟩ := h.release_of_phase (release_mem hj)
  obtain ⟨k, hk, s, hs, hri⟩ := hall _ (release_mem (hij.trans hj)) hphase
  obtain ⟨k', hk', s', hs', hrj⟩ := hall _ (release_mem hj) rfl
  have hkey := h.key_lt_key hij hj
  have htime : ∀ n < d.releasesPerSupercycle.toNat,
      (UInt64.ofNat (n * d.periodNs.toNat)).toNat = n * d.periodNs.toNat := fun n hn => by
    have hle := h.deadline_le d hd n hn
    exact toNat_ofNat_of_le (by omega)
  rw [hri, hrj] at hkey ⊢
  rw [CompiledRateDomain.release_ordinal hk hs, CompiledRateDomain.release_ordinal hk' hs']
  have hs2 : ∀ n < d.substepCount.toNat, (UInt32.ofNat n).toNat = n := fun n hn =>
    UInt32.toNat_ofNat_of_lt' (hn.trans d.substepCount.toNat_lt)
  simp only [ReferenceRelease.key, CompiledRateDomain.release, Prod.Lex.toLex_lt_toLex,
    lt_self_iff_false, true_and, false_or, htime k hk, htime k' hk', hs2 s hs, hs2 s' hs'] at hkey
  rcases hkey with hlt | ⟨heq, hlt⟩
  · have hkk : k < k' := lt_of_mul_lt_mul_right hlt (Nat.zero_le _)
    calc k * d.substepCount.toNat + s < (k + 1) * d.substepCount.toNat := by
          rw [Nat.succ_mul]
          omega
      _ ≤ k' * d.substepCount.toNat := Nat.mul_le_mul_right _ hkk
      _ ≤ k' * d.substepCount.toNat + s' := Nat.le_add_right _ _
  · obtain rfl : k = k' := Nat.eq_of_mul_eq_mul_right (h.period_pos d hd) heq
    omega

end IsTimeline

namespace CrossRateInputs

variable {inputs : CrossRateInputs}

/-- The ordinal of a release is its position among the references of its phase. -/
theorem getElem?_ordinal (h : IsTimeline inputs.ratePlan) {phase : PhaseHandle} {j : ℕ}
    (hj : j ∈ inputs.referencesOf phase) :
    (inputs.referencesOf phase)[(inputs.ratePlan.release j).ordinal]? = some j := by
  obtain ⟨hjlt, hjphase⟩ := mem_referencesOf.mp hj
  obtain ⟨d, hd, b, hb, hdom, hbphase, hall⟩ := h.release_of_phase (release_mem hjlt)
  rw [hjphase] at hbphase hall
  let S := d.substepCount.toNat
  have hS : 0 < S := h.substeps_pos d hd
  -- the ordinals are strictly increasing and fill an initial segment
  have hsorted : ((inputs.referencesOf phase).map
      fun i => (inputs.ratePlan.release i).ordinal).Pairwise (· < ·) := by
    refine pairwise_map.mpr ((inputs.referencesOf_sorted phase).imp_of_mem ?_)
    intro i i' hi hi' hlt
    obtain ⟨-, hp⟩ := mem_referencesOf.mp hi
    obtain ⟨hlt', hp'⟩ := mem_referencesOf.mp hi'
    exact h.ordinal_lt hlt hlt' (hp.trans hp'.symm)
  have hmem : ∀ n, n ∈ (inputs.referencesOf phase).map
      (fun i => (inputs.ratePlan.release i).ordinal) ↔
      n ∈ range (d.releasesPerSupercycle.toNat * S) := by
    intro n
    rw [mem_map, mem_range]
    refine ⟨?_, fun hn => ?_⟩
    · rintro ⟨i, hi, rfl⟩
      obtain ⟨hilt, hip⟩ := mem_referencesOf.mp hi
      obtain ⟨k', hk', s', hs', hri⟩ := hall _ (release_mem hilt) hip
      rw [hri, CompiledRateDomain.release_ordinal hk' hs']
      calc k' * S + s' < (k' + 1) * S := by
            rw [Nat.succ_mul]
            exact Nat.add_lt_add_left hs' _
        _ ≤ _ := Nat.mul_le_mul_right _ hk'
    · have hn1 : n / S < d.releasesPerSupercycle.toNat := Nat.div_lt_of_lt_mul (by rwa [mul_comm])
      have hn2 : n % S < S := Nat.mod_lt _ hS
      have hrel : d.release (n / S) b (n % S) ∈ inputs.ratePlan.releases :=
        (h.mem_releases _).mpr ⟨_, d, _, b, _, hdom, hn1, hb, rfl, hn2, rfl⟩
      obtain ⟨i, hi, heq⟩ := getElem_of_mem hrel
      have hri : inputs.ratePlan.release i = d.release (n / S) b (n % S) := by
        rw [← heq, release, getD_eq_getElem _ _ hi]
      refine ⟨i, mem_referencesOf.mpr ⟨hi, ?_⟩, ?_⟩
      · rw [hri, ← hbphase]
        rfl
      · rw [hri, CompiledRateDomain.release_ordinal hn1 hn2]
        exact Nat.div_add_mod' n S
  have hrange := hsorted.eq_of_mem_iff pairwise_lt_range hmem
  obtain ⟨n, hn, rfl⟩ := getElem_of_mem hj
  have hord : (inputs.ratePlan.release (inputs.referencesOf phase)[n]).ordinal = n := by
    have := getElem_of_eq hrange (by simpa using hn)
    simpa using this
  rw [hord]
  exact List.getElem?_eq_getElem hn

end CrossRateInputs

/-! ## Held marks and layout -/

variable (s : CompiledCrossRateSelection)

/-- A selection with its held mark. -/
def CompiledCrossRateSelection.withHeld (held : Bool) :
    CompiledCrossRateSelection :=
  { s with held := held }

/-- The mark compares a record with the one before it in the list. -/
theorem getElem?_markHeld (l : List CompiledCrossRateSelection) (previous : Option SourceKey)
    (n : ℕ) : (markHeld previous l)[n]? = l[n]?.map fun s => s.withHeld
      ((if n = 0 then previous else l[n - 1]?.map (sourceKey · 0)) = some (sourceKey s 0)) := by
  induction l generalizing previous n with
  | nil => simp [markHeld]
  | cons a l ih =>
    cases n with
    | zero => simp [markHeld, withHeld]
    | succ n =>
      rw [markHeld, List.getElem?_cons_succ, ih, List.getElem?_cons_succ]
      cases n with
      | zero => rfl
      | succ n => rfl

@[simp] theorem length_markHeld (l : List CompiledCrossRateSelection)
    (previous : Option SourceKey) : (markHeld previous l).length = l.length := by
  induction l generalizing previous with
  | nil => rfl
  | cons a l ih => rw [markHeld, length_cons, length_cons, ih]

/-- Position `2 n` holds the first-cycle record of the `n`-th consumer, `2 n + 1` the other. -/
theorem getElem?_interleave (first repeating : List CompiledCrossRateSelection)
    (hlen : first.length = repeating.length) (n : ℕ) :
    (interleave first repeating)[2 * n]? = first[n]? ∧
      (interleave first repeating)[2 * n + 1]? = repeating[n]? := by
  induction first generalizing repeating n with
  | nil =>
    obtain rfl := length_eq_zero_iff.mp hlen.symm
    exact ⟨rfl, rfl⟩
  | cons a first ih =>
    cases repeating with
    | nil => cases hlen
    | cons b repeating =>
      have hcons : interleave (a :: first) (b :: repeating) =
          a :: b :: interleave first repeating := rfl
      rw [hcons]
      cases n with
      | zero => exact ⟨rfl, rfl⟩
      | succ n => exact ih repeating (Nat.succ.inj hlen) n

theorem length_heldTables
    (pairs : List (CompiledCrossRateSelection × CompiledCrossRateSelection)) :
    (heldTables pairs).1.length = (heldTables pairs).2.length := by
  simp [heldTables]

namespace CrossRateInputs

variable {inputs : CrossRateInputs}

/-- The tables of a channel: the one read in cycle zero (`steady = false`) and the other. -/
def table (inputs : CrossRateInputs) (channel : CrossRateChannelSpec) (channelIndex : ℕ)
    (producerBinding consumerBinding : CompiledRateBinding) (steady : Bool) :
    List CompiledCrossRateSelection :=
  let sel := inputs.selection channel channelIndex producerBinding consumerBinding
  let tables := heldTables
    ((inputs.referencesOf channel.consumer).map fun j => (sel j false, sel j true))
  if steady then tables.2 else tables.1

/-- A channel as it stands in the candidate plan at position `k`. -/
structure Stored (inputs : CrossRateInputs) (out : CompiledCrossRatePlan) (k : ℕ)
    (channel : CrossRateChannelSpec) (channelIndex : ℕ)
    (producerBinding consumerBinding : CompiledRateBinding) : Prop where
  producers : inputs.referencesOf channel.producer ≠ []
  representable : ∀ j ∈ inputs.referencesOf channel.consumer,
    inputs.Representable channel channelIndex producerBinding consumerBinding j
  records : ∃ descriptor, out.channels[k]? = some descriptor ∧ ∀ (steady : Bool) n s,
    (inputs.table channel channelIndex producerBinding consumerBinding steady)[n]? = some s →
    out.selections[descriptor.firstSelectionIndex + 2 * n + (if steady then 1 else 0)]? = some s

variable {channel : CrossRateChannelSpec} {channelIndex : ℕ}

/-- Appending to the plan keeps what is stored. -/
theorem Stored.append {out out' : CompiledCrossRatePlan}
    {producerBinding consumerBinding : CompiledRateBinding}
    (h : inputs.Stored out k channel channelIndex producerBinding consumerBinding)
    (hch : out.channels <+: out'.channels) (hsel : out.selections <+: out'.selections) :
    inputs.Stored out' k channel channelIndex producerBinding consumerBinding := by
  obtain ⟨descriptor, hd, hrec⟩ := h.records
  have hkeep : ∀ {α : Type} {l l' : List α}, l <+: l' → ∀ {n : ℕ} {a : α},
      l[n]? = some a → l'[n]? = some a := by
    rintro α l - ⟨rest, rfl⟩ n a ha
    rwa [getElem?_append_left (List.getElem?_eq_some_iff.mp ha).1]
  exact ⟨h.producers, h.representable, descriptor, hkeep hch hd,
    fun steady n s hs => hkeep hsel (hrec steady n s hs)⟩

theorem selectFor_eq_ok {j : ℕ} {producerBinding consumerBinding : CompiledRateBinding}
    {pair : CompiledCrossRateSelection × CompiledCrossRateSelection}
    (h : inputs.selectFor channel channelIndex producerBinding consumerBinding
      (inputs.referencesOf channel.producer) j = .ok pair) :
    pair = (inputs.selection channel channelIndex producerBinding consumerBinding j false,
      inputs.selection channel channelIndex producerBinding consumerBinding j true) ∧
    inputs.Representable channel channelIndex producerBinding consumerBinding j := by
  rw [selectFor, reject_bind_eq_ok] at h
  obtain ⟨hrep, hpair⟩ := h
  cases hpair
  refine ⟨rfl, fun hnone hidx => hrep (Or.inl ⟨?_, hidx⟩)⟩
  rw [hnone]
  rfl

/-- One more channel: its descriptor and its tables are appended. -/
theorem compileChannel_stored {bindingByPhase : ℕ → Option ℕ}
    {candidate candidate' : CompiledCrossRatePlan}
    (h : inputs.compileChannel bindingByPhase candidate (channel, channelIndex) = .ok candidate') :
    candidate'.channels.length = candidate.channels.length + 1 ∧
      candidate.channels <+: candidate'.channels ∧
      candidate.selections <+: candidate'.selections ∧
      inputs.Stored candidate' candidate.channels.length channel channelIndex
        (inputs.bindingOf bindingByPhase channel.producer)
        (inputs.bindingOf bindingByPhase channel.consumer) := by
  simp only [compileChannel, bind_eq_ok, reject_eq_ok, Unique.exists_iff] at h
  obtain ⟨endpoint, -, hne, pairs, hpairs, bytes, -, store, -, h⟩ := h
  cases h
  obtain ⟨rfl, hall⟩ := eq_map_of_mapM_eq_ok (fun x y hy => (selectFor_eq_ok hy).1) hpairs
  refine ⟨by simp, prefix_append _ _, prefix_append _ _, ?_⟩
  refine ⟨fun hp => hne (Or.inl hp), fun j hj => (selectFor_eq_ok (hall j hj)).2, _,
    List.getElem?_concat_length, fun steady n s hs => ?_⟩
  have hfirst : ∀ e n b, (inputs.describeChannel channel channelIndex
      (inputs.bindingOf bindingByPhase channel.producer)
      (inputs.bindingOf bindingByPhase channel.consumer) e candidate.selections.length n
      b).firstSelectionIndex = candidate.selections.length := by
    intro e n b
    rcases e with - | e
    · rfl
    · simp only [describeChannel]
      split <;> rfl
  rw [hfirst, add_assoc, List.getElem?_append_right (Nat.le_add_right _ _),
    Nat.add_sub_cancel_left]
  cases steady with
  | false => exact (getElem?_interleave _ _ (length_heldTables _) n).1.trans hs
  | true => exact (getElem?_interleave _ _ (length_heldTables _) n).2.trans hs

/-- The loop over the channels stores every one of them at its own index. -/
theorem compilePlan_stored {out : CompiledCrossRatePlan} (h : inputs.compilePlan = .ok out)
    (hk : inputs.channels[k]? = some channel) :
    inputs.ratePlan.domains ≠ [] ∧
      ∃ pb cb, inputs.Stored out k channel k pb cb := by
  simp only [compilePlan, bind_eq_ok, reject_eq_ok, Unique.exists_iff] at h
  obtain ⟨hdomains, -, bindingByPhase, -, totals, -, hfold⟩ := h
  refine ⟨by simpa using hdomains, inputs.bindingOf bindingByPhase channel.producer,
    inputs.bindingOf bindingByPhase channel.consumer, ?_⟩
  let P : List (CrossRateChannelSpec × ℕ) → CompiledCrossRatePlan → Prop := fun done t =>
    t.channels.length = done.length ∧ ∀ n e, done[n]? = some e →
      inputs.Stored t n e.1 e.2 (inputs.bindingOf bindingByPhase e.1.producer)
        (inputs.bindingOf bindingByPhase e.1.consumer)
  have hP : P inputs.channels.zipIdx out := by
    refine foldlM_invariant hfold ⟨rfl, fun n e he => by simp at he⟩ ?_
    rintro done x rest t t' - ⟨hlen, hstored⟩ hx
    obtain ⟨hlen', hch, hsel, hnew⟩ := compileChannel_stored hx
    refine ⟨by rw [hlen', hlen, length_append]; rfl, fun n e he => ?_⟩
    rcases getElem?_concat_eq_some.mp he with he | ⟨rfl, rfl⟩
    · exact (hstored n e he).append hch hsel
    · rw [← hlen]
      exact hnew
  refine hP.2 k (channel, k) ?_
  rw [List.getElem?_zipIdx, hk]
  simp

end CrossRateInputs

/-! ## Reading a record -/

/-- The record the runtime reads for the consumer record `x`: the channel's tables start at
`first_selection_index` and the cycle decides between the two tables. -/
def CompiledCrossRatePlan.selectionOf (out : CompiledCrossRatePlan) (plan : CompiledRatePlan)
    (k : ℕ) (x : UnrolledRecord) : Option CompiledCrossRateSelection :=
  out.channels[k]?.bind fun descriptor =>
    out.selections[descriptor.firstSelectionIndex + 2 * (plan.release x.2).ordinal +
      (if x.1 ≠ 0 then 1 else 0)]?

/-- The record of the repeated schedule that a selection names when it is read in cycle `c`;
`none` is the initial sample. -/
def CompiledCrossRateSelection.source (c : ℤ) :
    Option (ℤ × ℕ) :=
  s.producerReferenceIndex.map fun p => (c + s.sourceCycleOffset, p)

@[simp] theorem CompiledCrossRateSelection.source_withHeld
    (b : Bool) (c : ℤ) : (s.withHeld b).source c = s.source c := rfl

namespace CrossRateInputs

variable {inputs : CrossRateInputs}

section Read

variable {channel : CrossRateChannelSpec} {channelIndex : ℕ}
  {producerBinding consumerBinding : CompiledRateBinding}

/-- The key a record is compared with: that of the record before it, and at the start of the
repeating table that of its last record one cycle earlier. -/
def previousKey (inputs : CrossRateInputs) (channel : CrossRateChannelSpec) (channelIndex : ℕ)
    (producerBinding consumerBinding : CompiledRateBinding) (steady : Bool) (n : ℕ) :
    Option SourceKey :=
  let sel := inputs.selection channel channelIndex producerBinding consumerBinding
  let consumers := inputs.referencesOf channel.consumer
  if n = 0 then
    if steady then consumers.getLast?.map fun last => sourceKey (sel last true) (-1) else none
  else consumers[n - 1]?.map fun i => sourceKey (sel i steady) 0

variable {j n : ℕ}

theorem getElem?_table {steady : Bool} (hj : (inputs.referencesOf channel.consumer)[n]? = some j) :
    let s := inputs.selection channel channelIndex producerBinding consumerBinding j steady
    (inputs.table channel channelIndex producerBinding consumerBinding steady)[n]? = some
      (s.withHeld (inputs.previousKey channel channelIndex producerBinding consumerBinding
        steady n = some (sourceKey s 0))) := by
  cases steady <;>
    simp [table, heldTables, getElem?_markHeld, previousKey, hj, Function.comp_def]

variable {out : CompiledCrossRatePlan}

/-- The runtime reads the record of the table for its cycle. -/
theorem Stored.selectionOf {c : ℕ}
    (hst : inputs.Stored out k channel channelIndex producerBinding consumerBinding)
    (hord : (inputs.ratePlan.release j).ordinal = n)
    (hj : (inputs.referencesOf channel.consumer)[n]? = some j) :
    let s := inputs.selection channel channelIndex producerBinding consumerBinding j (c ≠ 0)
    out.selectionOf inputs.ratePlan k (c, j) = some
      (s.withHeld (inputs.previousKey channel channelIndex producerBinding consumerBinding
        (c ≠ 0) n = some (sourceKey s 0))) := by
  intro s
  obtain ⟨descriptor, hd, hrec⟩ := hst.records
  have hread := hrec (decide (c ≠ 0)) n _ (getElem?_table hj)
  rw [CompiledCrossRatePlan.selectionOf, hd, Option.bind_some, hord, ← hread]
  simp only [decide_eq_true_eq]

/-- Provenance, index and offset of a selection agree. -/
def Tagged : Prop :=
  (s.provenance = .produced ∧ s.producerReferenceIndex ≠ none) ∨
    (s.provenance = .initialSample ∧ s.producerReferenceIndex = none ∧ s.sourceCycleOffset = 0)

/-- Keys compare like the records they stand for. -/
theorem sourceKey_eq_iff {s s' : CompiledCrossRateSelection} (hs : Tagged s) (hs' : Tagged s')
    {a : ℤ} (ha : a = 0 ∨ s.producerReferenceIndex ≠ none) (c : ℤ) :
    sourceKey s a = sourceKey s' 0 ↔ s.source (c + a) = s'.source c := by
  simp only [sourceKey, source, SourceKey.mk.injEq, zero_add]
  rcases hs with ⟨hp, hi⟩ | ⟨hp, hi, ho⟩ <;> rcases hs' with ⟨hp', hi'⟩ | ⟨hp', hi', ho'⟩
  · obtain ⟨p, hpe⟩ := Option.ne_none_iff_exists'.mp hi
    obtain ⟨p', hpe'⟩ := Option.ne_none_iff_exists'.mp hi'
    rw [hp, hp', hpe, hpe']
    simp only [true_and, Option.map_some, Option.some.injEq, Prod.mk.injEq]
    exact ⟨fun ⟨h1, h2⟩ => ⟨by omega, h1⟩, fun ⟨h1, h2⟩ => ⟨h2, by omega⟩⟩
  · obtain ⟨p, hpe⟩ := Option.ne_none_iff_exists'.mp hi
    simp [hp, hp', hpe, hi']
  · obtain ⟨p', hpe'⟩ := Option.ne_none_iff_exists'.mp hi'
    simp [hp, hp', hpe', hi]
  · have ha0 : a = 0 := ha.resolve_right fun hn => hn hi
    simp [hp, hp', hi, hi', ho, ho', ha0]

variable (h : IsTimeline inputs.ratePlan)
include h

section

variable {w : ℕ} (hj : j < inputs.ratePlan.releases.length)
  (hw : (inputs.referencesOf channel.producer).getLast? = some w)
  (hrep : inputs.Representable channel channelIndex producerBinding consumerBinding j)
include hj hw hrep

theorem selection_tagged (steady : Bool) :
    Tagged (inputs.selection channel channelIndex producerBinding consumerBinding j steady) := by
  have hsorted := inputs.referencesOf_sorted channel.producer
  cases hp : inCycleReference (inputs.referencesOf channel.producer) j with
  | some p =>
    obtain ⟨-, hpj, -⟩ := inCycleReference_eq_some hsorted hp
    have hs := selection_of_inCycle channelIndex producerBinding consumerBinding
      steady hp (h.releaseTime_le hpj.le hj)
    exact Or.inl ⟨hs.1, by rw [hs.2.1]; exact Option.some_ne_none p⟩
  | none =>
    cases steady with
    | false =>
      have hs := selection_initial channelIndex producerBinding consumerBinding hp
      exact Or.inr ⟨hs.1, hs.2.1, hs.2.2.1⟩
    | true =>
      have hs := selection_wrap hp hw (hrep hp)
      exact Or.inl ⟨hs.1, by rw [hs.2.1]; exact Option.some_ne_none w⟩

/-- The repeating table never holds the initial sample. -/
theorem selection_steady : (inputs.selection channel channelIndex producerBinding consumerBinding j
      true).producerReferenceIndex ≠ none := by
  have hcorrect := selection_correct (c := 1) h hj hw hrep
  intro hnone
  rcases selection_tagged h hj hw hrep true with ⟨-, hi⟩ | ⟨hp, -, -⟩
  · exact hi hnone
  · exact absurd (hcorrect.initial_age hp).1 one_ne_zero

end

variable {phase : PhaseHandle}

omit h in
/-- The first reference of a phase is its smallest. -/
theorem le_of_first {q : ℕ} (hj : (inputs.referencesOf phase)[0]? = some j)
    (hq : q ∈ inputs.referencesOf phase) :
    j ≤ q := by
  obtain ⟨h0, rfl⟩ := List.getElem?_eq_some_iff.mp hj
  obtain ⟨m, hm, rfl⟩ := getElem_of_mem hq
  exact (inputs.referencesOf_sorted phase).sortedLT.getElem_le_getElem_iff.mpr (Nat.zero_le m)

/-- Within one cycle the consumer record before is the one before in the list. -/
theorem isLastBefore_pred {c i : ℕ} (hi : (inputs.referencesOf phase)[n]? = some i)
    (hj : (inputs.referencesOf phase)[n + 1]? = some j) :
    inputs.ratePlan.IsLastBefore phase (c, i) (c, j) := by
  have hsorted := (inputs.referencesOf_sorted phase).sortedLT
  obtain ⟨hn, rfl⟩ := List.getElem?_eq_some_iff.mp hi
  obtain ⟨hn', rfl⟩ := List.getElem?_eq_some_iff.mp hj
  have hjmem := mem_referencesOf.mp (mem_of_getElem? hj)
  refine (h.isLastBefore_iff hjmem.1).mpr ⟨mem_referencesOf.mp (mem_of_getElem? hi),
    Or.inr ⟨rfl, ?_⟩, fun z hz hzy => ?_⟩
  · exact hsorted.getElem_lt_getElem_iff.mpr (Nat.lt_succ_self n)
  · rcases hzy with hlt | ⟨heq, hlt⟩
    · exact Or.inl hlt
    · -- a later reference is not before the consumer
      refine Or.inr ⟨heq, ?_⟩
      obtain ⟨m, hm, hz2⟩ := getElem_of_mem (mem_referencesOf.mpr hz)
      rw [← hz2, hsorted.getElem_lt_getElem_iff] at hlt
      rw [← hz2, hsorted.getElem_le_getElem_iff]
      omega

/-- Across the seam it is the last one of the cycle before. -/
theorem isLastBefore_seam {c w : ℕ} (hj : (inputs.referencesOf phase)[0]? = some j)
    (hw : (inputs.referencesOf phase).getLast? = some w) :
    inputs.ratePlan.IsLastBefore phase (c, w) (c + 1, j) := by
  obtain ⟨hwmem, hwmax⟩ := le_getLast (inputs.referencesOf_sorted phase) hw
  have hjmem := mem_referencesOf.mp (mem_of_getElem? hj)
  refine (h.isLastBefore_iff hjmem.1).mpr ⟨mem_referencesOf.mp hwmem, Or.inl (Nat.lt_succ_self c),
    fun z hz hzy => ?_⟩
  have hz2 := hwmax z.2 (mem_referencesOf.mpr hz)
  have hzj := le_of_first hj (mem_referencesOf.mpr hz)
  change z.1 < c ∨ z.1 = c ∧ z.2 ≤ w
  change z.1 < c + 1 ∨ z.1 = c + 1 ∧ z.2 < j at hzy
  omega

theorem ordinal_of_getElem? (hj : (inputs.referencesOf phase)[n]? = some j) :
    (inputs.ratePlan.release j).ordinal = n := by
  have hord := getElem?_ordinal h (mem_of_getElem? hj)
  obtain ⟨hn, -⟩ := List.getElem?_eq_some_iff.mp hj
  have hnodup : (inputs.referencesOf phase).Nodup :=
    (inputs.referencesOf_sorted phase).imp ne_of_lt
  exact ((List.getElem?_inj hn hnodup).mp (hj.trans hord.symm)).symm

/-- The consumer record before `(c, j)` was read with the same source as `source`. -/
def PrecedingReads (plan : CompiledRatePlan) (out : CompiledCrossRatePlan) (k : ℕ)
    (consumer : PhaseHandle) (x : UnrolledRecord) (source : Option (ℤ × ℕ)) : Prop :=
  ∃ y s, plan.IsLastBefore consumer y x ∧ out.selectionOf plan k y = some s ∧
    s.source y.1 = source

theorem precedingReads_iff {x y : UnrolledRecord} {s : CompiledCrossRateSelection}
    {source : Option (ℤ × ℕ)} (hx : x.2 < inputs.ratePlan.releases.length)
    (hy : inputs.ratePlan.IsLastBefore phase y x)
    (hs : out.selectionOf inputs.ratePlan k y = some s) :
    PrecedingReads inputs.ratePlan out k phase x source ↔ s.source y.1 = source := by
  refine ⟨?_, fun heq => ⟨y, s, hy, hs, heq⟩⟩
  rintro ⟨y', s', hy', hs', heq⟩
  obtain rfl := h.isLastBefore_unique hx hy hy'
  obtain rfl := Option.some.inj (hs.symm.trans hs')
  exact heq

/-- The first-cycle record of the last consumer against the repeating one it stands for at
the first seam. -/
theorem first_seam {l w : ℕ} (hl : l < inputs.ratePlan.releases.length) (hjl : j ≤ l)
    (hw : (inputs.referencesOf channel.producer).getLast? = some w)
    (hrepj : inputs.Representable channel channelIndex producerBinding consumerBinding j)
    (hrepl : inputs.Representable channel channelIndex producerBinding consumerBinding l) :
    let sel := inputs.selection channel channelIndex producerBinding consumerBinding
    (sel l true).source 0 = (sel j true).source 1 ↔
      (sel l false).source 0 = (sel j true).source 1 := by
  intro sel
  have hsorted := inputs.referencesOf_sorted channel.producer
  cases hp : inCycleReference (inputs.referencesOf channel.producer) l with
  | some p =>
    obtain ⟨-, hpl, -⟩ := inCycleReference_eq_some hsorted hp
    have hs := fun steady => selection_of_inCycle channelIndex producerBinding consumerBinding
      steady hp (h.releaseTime_le hpl.le hl)
    simp only [sel, source, (hs _).2.1, (hs _).2.2.1]
  | none =>
    -- no producer release before the last consumer, hence none before the first
    have hpj : inCycleReference (inputs.referencesOf channel.producer) j = none := by
      rw [Option.eq_none_iff_forall_ne_some]
      intro q hq
      obtain ⟨hqmem, hqj, -⟩ := inCycleReference_eq_some hsorted hq
      exact inCycleReference_eq_none hsorted hp q hqmem (hqj.trans_le hjl)
    have hsf := selection_initial channelIndex producerBinding consumerBinding hp
    have hsl := selection_wrap hp hw (hrepl hp)
    have hsj := selection_wrap hpj hw (hrepj hpj)
    simp [sel, source, hsf.2.1, hsl.2.1, hsl.2.2.1, hsj.2.1,
      hsj.2.2.1]

/-- The held mark of the tables, in every cycle. -/
theorem Stored.held {c : ℕ}
    (hst : inputs.Stored out k channel channelIndex producerBinding consumerBinding)
    (hj : (inputs.referencesOf channel.consumer)[n]? = some j) :
    let s := inputs.selection channel channelIndex producerBinding consumerBinding j (c ≠ 0)
    inputs.previousKey channel channelIndex producerBinding consumerBinding (c ≠ 0) n =
        some (sourceKey s 0) ↔
      PrecedingReads inputs.ratePlan out k channel.consumer (c, j) (s.source c) := by
  intro s
  obtain ⟨w, hw⟩ : ∃ w, (inputs.referencesOf channel.producer).getLast? = some w :=
    ⟨_, getLast?_eq_some_getLast hst.producers⟩
  have hjmem := mem_of_getElem? hj
  have hjlt := (mem_referencesOf.mp hjmem).1
  have htag : ∀ i ∈ inputs.referencesOf channel.consumer, ∀ steady, Tagged
      (inputs.selection channel channelIndex producerBinding consumerBinding i steady) :=
    fun i hi steady =>
      selection_tagged h (mem_referencesOf.mp hi).1 hw (hst.representable i hi) steady
  rcases n with - | n
  · rcases c with - | c
    · -- the very first consumer record has no predecessor
      refine iff_of_false (by simp [previousKey]) ?_
      rintro ⟨y, s', hy, -, -⟩
      have hmin := le_of_first hj (mem_referencesOf.mpr hy.record)
      rcases (h.unrolledKey_lt_iff hy.record.1 hjlt).mp hy.before with hlt | ⟨-, hlt⟩
      · exact Nat.not_lt_zero _ hlt
      · exact absurd hlt hmin.not_gt
    · obtain ⟨l, hl⟩ : ∃ l, (inputs.referencesOf channel.consumer).getLast? = some l :=
        ⟨_, getLast?_eq_some_getLast (ne_nil_of_mem hjmem)⟩
      obtain ⟨hlmem, -⟩ := le_getLast (inputs.referencesOf_sorted channel.consumer) hl
      have hllt := (mem_referencesOf.mp hlmem).1
      have hlord := getElem?_ordinal h hlmem
      have hread := hst.selectionOf (c := c) rfl hlord
      rw [precedingReads_iff h hjlt (isLastBefore_seam h hj hl) hread]
      have hkey : inputs.previousKey channel channelIndex producerBinding consumerBinding
          (c + 1 ≠ 0) 0 = some (sourceKey (inputs.selection channel channelIndex producerBinding
            consumerBinding l true) (-1)) := by
        simp [previousKey, hl]
      have hshift := sourceKey_eq_iff (a := -1) (htag l hlmem true) (htag j hjmem (decide (c + 1 ≠ 0)))
        (Or.inr (selection_steady h hllt hw (hst.representable l hlmem))) ((c : ℤ) + 1)
      rw [hkey, Option.some.injEq, hshift, source_withHeld,
        add_neg_cancel_right]
      rcases c with - | c
      · exact first_seam h hllt (le_of_first hj hlmem) hw (hst.representable j hjmem)
          (hst.representable l hlmem)
      · simp [s]
  · obtain ⟨i, hi⟩ : ∃ i, (inputs.referencesOf channel.consumer)[n]? = some i := by
      obtain ⟨hlt, -⟩ := List.getElem?_eq_some_iff.mp hj
      exact ⟨_, List.getElem?_eq_getElem (Nat.lt_of_succ_lt hlt)⟩
    have himem := mem_of_getElem? hi
    have hread := hst.selectionOf (c := c) (ordinal_of_getElem? h hi) hi
    rw [precedingReads_iff h hjlt (isLastBefore_pred h hi hj) hread]
    have hkey : inputs.previousKey channel channelIndex producerBinding consumerBinding
        (c ≠ 0) (n + 1) = some (sourceKey (inputs.selection channel channelIndex producerBinding
          consumerBinding i (c ≠ 0)) 0) := by
      simp [previousKey, hi]
    rw [hkey, Option.some.injEq, sourceKey_eq_iff (htag i himem _) (htag j hjmem _) (Or.inl rfl)
      (c : ℤ), add_zero, source_withHeld]

end Read

end CrossRateInputs

/-! ## The compiled plan -/

theorem withMessage_errors {α : Type} {x : Except Status α} {message : String}
    (hx : ErrorsSatisfy (· ≠ .ok) x) : NeverOk (withMessage x message) := by
  rintro d hd
  cases x with
  | ok a => cases hd
  | error status =>
    obtain rfl := Except.error.inj hd
    exact hx status rfl

theorem compileDeviceEndpoint_errors {plan : Option CompiledDeviceRatePlan}
    {buffers : List CrossRateDeviceBufferSource} {channel : CrossRateChannelSpec}
    {producer : Bool} :
    ErrorsSatisfy (· ≠ .ok) (compileDeviceEndpoint plan buffers channel producer) := by
  refine .get (by decide) fun plan => .check (by decide) (.get (by decide) fun record => ?_)
  exact .check (by decide) (.get (by decide) fun reference => .get (by decide) fun buffer =>
    .check (by decide) (.ok _))

namespace CrossRateInputs

variable {inputs : CrossRateInputs}

theorem checkChannel_errors {bindingByPhase : ℕ → Option ℕ} {totals : ChannelTotals}
    {entry : CrossRateChannelSpec × ℕ} :
    NeverOk (inputs.checkChannel bindingByPhase totals entry) := by
  refine .check (by decide) (.check (by decide) (.check (by decide) (.check (by decide)
    (.check (by decide) ?_))))
  refine .bind (.ite (.map (withMessage_errors compileDeviceEndpoint_errors)) (.ok _)) fun _ _ => ?_
  refine .check (by decide) (.bind (.forM fun earlier _ => ?_) fun _ _ => ?_)
  · exact .check (by decide) (.reject fun _ => by decide)
  refine .get (by decide) fun _ => .check (by decide) (.get (by decide) fun _ =>
    .get (by decide) fun _ => .check (by decide) (.check (by decide) ?_))
  exact .get (by decide) fun _ => .get (by decide) fun _ => .check (by decide) (.ok _)

theorem compileChannel_errors {bindingByPhase : ℕ → Option ℕ} {candidate : CompiledCrossRatePlan}
    {entry : CrossRateChannelSpec × ℕ} :
    NeverOk (inputs.compileChannel bindingByPhase candidate entry) := by
  refine .bind (.ite (.map ?_) (.ok _)) fun endpoint _ => .check (by decide)
    (.bind (.mapM fun j _ => ?_) fun pairs _ => .get (by decide) fun bytes =>
      .bind ?_ fun store _ => .ok _)
  · exact .bind (withMessage_errors compileDeviceEndpoint_errors) fun _ _ => .get (by decide)
      fun _ => .bind (.forM fun prior _ => .reject fun _ => by decide) fun _ _ => .ok _
  · exact .check (by decide) (.ok _)
  · exact withMessage_errors (.check (by decide) (.get (by decide) fun _ => .ok _))

/-- A failed compilation never reports `ok`. -/
theorem compilePlan_errors : NeverOk inputs.compilePlan := by
  refine .check (by decide) (.check (by decide) (.bind (.foldlM fun t e _ => ?_) fun _ _ => ?_))
  · exact .check (by decide) (.ok _)
  · exact .bind (.foldlM fun t e _ => checkChannel_errors) fun _ _ =>
      .foldlM fun t e _ => compileChannel_errors

/-- With at least one channel, `ok` means that the whole plan was compiled. -/
theorem compileCrossRateData_eq_ok {output : CompiledCrossRatePlan} (hne : inputs.channels ≠ [])
    (h : (compileCrossRateData inputs output).status = .ok) :
    inputs.compilePlan = .ok (compileCrossRateData inputs output).output := by
  unfold compileCrossRateData at h ⊢
  split at h
  · cases h
  · rename_i hslots
    rw [if_neg (by simpa using hne)] at h
    rw [if_neg hslots, if_neg (by simpa using hne)]
    cases hc : inputs.compilePlan with
    | ok candidate => rfl
    | error d =>
      rw [hc] at h
      exact absurd h (compilePlan_errors d hc)

end CrossRateInputs

open CrossRateInputs in
/-- For a compiled timeline, the tables give every consumer record of every cycle the last
producer record before it, with exact cycle, age and freshness, and mark it held exactly
when the consumer record before it read the same source. -/
theorem compileCrossRateData_spec (inputs : CrossRateInputs) (output : CompiledCrossRatePlan)
    (compiledOrder : List PhaseHandle) (domains : List RateDomainSpec)
    (bindings : List RateBindingSpec) (previous : CompiledRatePlan)
    (htimeline : (compileRateTimeline inputs.graphOwner inputs.phaseCount compiledOrder domains
      bindings previous).status = .ok)
    (hplan : inputs.ratePlan = (compileRateTimeline inputs.graphOwner inputs.phaseCount
      compiledOrder domains bindings previous).output)
    (hok : (compileCrossRateData inputs output).status = .ok) (k : ℕ)
    (channel : CrossRateChannelSpec) (hk : inputs.channels[k]? = some channel) (c j : ℕ)
    (hj : inputs.ratePlan.IsRecordOf channel.consumer (c, j)) :
    ∃ s, (compileCrossRateData inputs output).output.selectionOf inputs.ratePlan k (c, j) =
        some s ∧
      SelectionCorrect inputs.ratePlan channel c j s ∧
      (s.held = true ↔ PrecedingReads inputs.ratePlan (compileCrossRateData inputs output).output
        k channel.consumer (c, j) (s.source c)) := by
  have hchannels : inputs.channels ≠ [] := ne_nil_of_mem (mem_of_getElem? hk)
  obtain ⟨hne, pb, cb, hst⟩ := compilePlan_stored (compileCrossRateData_eq_ok hchannels hok) hk
  have hdomains : domains ≠ [] := by
    rintro rfl
    exact hne (by rw [hplan, compileRateTimeline_nil htimeline])
  have h : IsTimeline inputs.ratePlan := by
    rw [hplan]
    exact compileRateTimeline_isTimeline hdomains htimeline
  obtain ⟨w, hw⟩ : ∃ w, (inputs.referencesOf channel.producer).getLast? = some w :=
    ⟨_, getLast?_eq_some_getLast hst.producers⟩
  have hmem : j ∈ inputs.referencesOf channel.consumer := mem_referencesOf.mpr hj
  have hord := getElem?_ordinal h hmem
  have hcorrect := selection_correct (c := c) h hj.1 hw (hst.representable j hmem)
  refine ⟨_, hst.selectionOf rfl hord, ?_, ?_⟩
  · exact { hcorrect with }
  · exact decide_eq_true_iff.trans (hst.held h hord)

/-- Two domains of periods 2 and 3 and a channel from the first to the second. -/
def twoRateInputs : CrossRateInputs where
  graphOwner := 7
  phaseCount := 2
  ratePlan := (compileRateTimeline 7 2 [PhaseHandle.make 7 1, PhaseHandle.make 7 0]
    [{ name := ['a'], periodNs := 2, substepCount := 1, relativeDeadlineNs := 1 },
      { name := ['b'], periodNs := 3, substepCount := 2, relativeDeadlineNs := 3 }]
    [{ phase := PhaseHandle.make 7 0, domain := RateDomainHandle.make 7 0 },
      { phase := PhaseHandle.make 7 1, domain := RateDomainHandle.make 7 1 }] {}).output
  channels := [{
    name := ['x']
    producer := PhaseHandle.make 7 0
    consumer := PhaseHandle.make 7 1
    payloadSize := 1
    initialSample := [0] }]
  deviceRatePlan := none
  deviceBuffers := []
  snapshotSlotCounts := []

/-- The first consumer record of the second cycle reads a record of the first. -/
theorem compileCrossRateData_twoRate :
    (compileCrossRateData twoRateInputs {}).status = .ok ∧
      ∃ s, (compileCrossRateData twoRateInputs {}).output.selectionOf twoRateInputs.ratePlan 0
          (1, 1) = some s ∧
        CrossRateInputs.SelectionCorrect twoRateInputs.ratePlan (twoRateInputs.channels.headD {})
          1 1 s ∧
        (s.held = true ↔ CrossRateInputs.PrecedingReads twoRateInputs.ratePlan
          (compileCrossRateData twoRateInputs {}).output 0 (PhaseHandle.make 7 1) (1, 1)
          (s.source 1)) :=
  ⟨by decide +kernel, compileCrossRateData_spec twoRateInputs {}
    [PhaseHandle.make 7 1, PhaseHandle.make 7 0]
    [{ name := ['a'], periodNs := 2, substepCount := 1, relativeDeadlineNs := 1 },
      { name := ['b'], periodNs := 3, substepCount := 2, relativeDeadlineNs := 3 }]
    [{ phase := PhaseHandle.make 7 0, domain := RateDomainHandle.make 7 0 },
      { phase := PhaseHandle.make 7 1, domain := RateDomainHandle.make 7 1 }] {}
    (by decide +kernel) rfl (by decide +kernel) 0 (twoRateInputs.channels.headD {}) rfl 1 1
    ⟨by decide +kernel, by decide +kernel⟩⟩

end RtRuntime
