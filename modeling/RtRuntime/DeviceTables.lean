import RtRuntime.DeviceRatePlan
import RtRuntime.GraphConflicts

/-!
# What the device tables say

The admission reads phases and backends through index tables. The facts of this file take
such a read back to the binding, the phase source and the backend source it stems from.
-/

namespace RtRuntime

open Function List

/-- Backend handles that belong to the graph are determined by their index. -/
theorem DeviceBackendHandle.belongs_inj {graphOwner : UInt32} {n : ℕ} {b c : DeviceBackendHandle}
    (hb : b.belongs graphOwner n = true) (hc : c.belongs graphOwner n = true)
    (h : b.index = c.index) : b = c := by
  have hmask : deviceHandleIndexMask.toNat = 2 ^ 31 - 1 := by decide
  have hlow : ∀ d : DeviceBackendHandle, d.belongs graphOwner n = true →
      d.owner = graphOwner ∧ d.index = d.value.toNat % 2 ^ 32 := by
    intro d hd
    simp only [belongs, valid, Bool.and_eq_true, decide_eq_true_eq,
      toUInt32_land_bit _ (show deviceBufferKindBit.toNat = 2 ^ 31 by decide)] at hd
    refine ⟨hd.1.2, ?_⟩
    rw [index, UInt32.toNat_and, hmask, Nat.and_two_pow_sub_one_eq_mod, UInt64.toNat_toUInt32]
    omega
  obtain ⟨hob, hib⟩ := hlow b hb
  obtain ⟨hoc, hic⟩ := hlow c hc
  have howner := congrArg UInt32.toNat (hob.trans hoc.symm)
  rw [owner, owner, handleOwner_toNat, handleOwner_toNat] at howner
  have hvalue : b.value = c.value := UInt64.toNat_inj.mp (by omega)
  cases b
  cases c
  exact congrArg DeviceBackendHandle.mk hvalue

/-! ## Inventories -/

/-- The table of an inventory leads from the index of each source to its position and back. -/
theorem inventory_spec {α : Type} {accepts : α → Bool} {index : α → ℕ} {message : String}
    {sources : List α} {table : ℕ → Option ℕ}
    (h : inventory accepts index message sources = .ok table) :
    (∀ n a, sources[n]? = some a → accepts a = true ∧ table (index a) = some n) ∧
      ∀ k n, table k = some n → ∃ a, sources[n]? = some a ∧ index a = k := by
  let P : List (α × ℕ) → (ℕ → Option ℕ) → Prop := fun done t =>
    (∀ e ∈ done, accepts e.1 = true ∧ t (index e.1) = some e.2) ∧
      ∀ k n, t k = some n → ∃ e ∈ done, index e.1 = k ∧ e.2 = n
  have hP : P sources.zipIdx table := by
    refine foldlM_invariant h ⟨by simp, by simp⟩ ?_
    rintro done e rest t t' - ⟨hto, hback⟩ hstep
    rw [reject_bind_eq_ok] at hstep
    obtain ⟨hnew, hstep⟩ := hstep
    cases hstep
    simp only [Bool.or_eq_true, Bool.not_eq_true', Option.isSome_iff_ne_none, not_or, ne_eq,
      not_not, Bool.not_eq_false] at hnew
    refine ⟨forall_mem_concat.mpr ⟨fun f hf => ⟨(hto f hf).1, ?_⟩, hnew.1, update_self ..⟩,
      fun k n hk => ?_⟩
    · rw [update_of_ne, (hto f hf).2]
      intro heq
      rw [← heq, (hto f hf).2] at hnew
      exact absurd hnew.2 (Option.some_ne_none _)
    · by_cases hke : k = index e.1
      · subst hke
        rw [update_self] at hk
        exact ⟨e, by simp, rfl, Option.some.inj hk⟩
      · rw [update_of_ne hke] at hk
        obtain ⟨f, hf, hfk⟩ := hback k n hk
        exact ⟨f, mem_append_left _ hf, hfk⟩
  refine ⟨fun n a ha => hP.1 (a, n) (mem_zipIdx_iff_getElem?.mpr ha), fun k n hk => ?_⟩
  obtain ⟨⟨a, m⟩, he, hidx, rfl⟩ := hP.2 k n hk
  exact ⟨a, mem_zipIdx_iff_getElem?.mp he, hidx⟩

namespace DeviceRateInputs

variable {inputs : DeviceRateInputs}

/-- The position found for a backend handle is that of its source. -/
structure BackendAt (inputs : DeviceRateInputs) (inventories : Inventories)
    (backend : DeviceBackendHandle) (m : ℕ) : Prop where
  index : inventories.backendSourceByIndex backend.index = some m
  source : ∃ source, inputs.backends[m]? = some source ∧ source.backend = backend

section Inventories

variable {inventories : Inventories} (h : inputs.inventories = .ok inventories)
include h

theorem inventories_eq_ok :
    inputs.backendSourceByIndex = .ok inventories.backendSourceByIndex ∧
      inputs.phaseSourceByIndex = .ok inventories.phaseSourceByIndex := by
  simp only [DeviceRateInputs.inventories, bind_eq_ok] at h
  obtain ⟨backends, hb, buffers, -, timelines, -, phases, hp, h⟩ := h
  cases h
  exact ⟨hb, hp⟩

theorem backendAt_of_source {backend : DeviceBackendHandle} {m : ℕ}
    (hm : inputs.backendSourceOf inventories backend = some m) :
    inputs.BackendAt inventories backend m := by
  obtain ⟨hto, hback⟩ := inventory_spec (inventories_eq_ok h).1
  rw [backendSourceOf] at hm
  split at hm
  · rename_i hbel
    obtain ⟨source, hs, hidx⟩ := hback _ _ hm
    exact ⟨hm, source, hs, DeviceBackendHandle.belongs_inj (hto _ _ hs).1 hbel hidx⟩
  · cases hm

/-- Backends are determined by their handles. -/
theorem backendAt_inj {b : DeviceBackendHandle} {m m' : ℕ} {source : DeviceRateBackendSource}
    (hm : inputs.BackendAt inventories b m) (hs : inputs.backends[m']? = some source)
    (hb : source.backend = b) : m = m' := by
  obtain ⟨hto, -⟩ := inventory_spec (inventories_eq_ok h).1
  have := (hto m' source hs).2
  rw [hb, hm.index] at this
  exact Option.some.inj this

/-- Phase sources are determined by their handles. -/
theorem phaseSource_unique {source source' : DeviceRatePhaseSource} (hs : source ∈ inputs.phases)
    (hs' : source' ∈ inputs.phases) (hp : source.phase = source'.phase) : source = source' := by
  obtain ⟨hto, -⟩ := inventory_spec (inventories_eq_ok h).2
  obtain ⟨n, hn⟩ := mem_iff_getElem?.mp hs
  obtain ⟨n', hn'⟩ := mem_iff_getElem?.mp hs'
  have h1 := (hto n source hn).2
  have h2 := (hto n' source' hn').2
  rw [hp, h2] at h1
  obtain rfl := Option.some.inj h1
  exact Option.some.inj (hn.symm.trans hn')

theorem phaseSourceOf_eq_some {phase : PhaseHandle} {source : DeviceRatePhaseSource}
    (hs : inputs.phaseSourceOf inventories phase = some source) :
    source ∈ inputs.phases ∧ source.phase = phase := by
  obtain ⟨hto, hback⟩ := inventory_spec (inventories_eq_ok h).2
  rw [phaseSourceOf] at hs
  split at hs
  · rename_i hbel
    rw [Option.bind_eq_some_iff] at hs
    obtain ⟨n, hn, hs⟩ := hs
    obtain ⟨source', hs', hidx⟩ := hback _ _ hn
    obtain rfl := Option.some.inj (hs'.symm.trans hs)
    exact ⟨mem_of_getElem? hs, PhaseHandle.belongs_inj (hto _ _ hs).1 hbel hidx⟩
  · cases hs

end Inventories

/-! ## Compiled phases -/

/-- The compiled phase at position `n` with the binding it was made from. -/
structure CompiledFrom (inputs : DeviceRateInputs) (inventories : Inventories)
    (tables : PhaseTables) (n : ℕ) (binding : DeviceRateBindingSpec)
    (phase : CompiledDeviceRatePhase) : Prop where
  record : tables.phases[n]? = some phase
  phase_eq : phase.phase = binding.phase
  budget : phase.completionBudgetNs = binding.completionBudgetNs
  maximum : phase.maximumInFlight = binding.maximumInFlight
  belongs : binding.phase.belongs inputs.graphOwner inputs.ratePlan.bindings.length = true
  plan : tables.planPhaseByRegistration binding.phase.index = some n
  registered : ∃ c ∈ inputs.ratePlan.bindings, c.phase = binding.phase
  source : ∃ source ∈ inputs.phases, source.phase = binding.phase ∧ source.backend = phase.backend
  backend : ∃ m, inputs.backendSourceOf inventories phase.backend = some m ∧
    tables.backendUsed m = true

/-- The tables after the bindings in `done`. -/
structure PhaseTables.Records (inputs : DeviceRateInputs) (inventories : Inventories)
    (done : List ℕ) (tables : PhaseTables) : Prop where
  length : tables.phases.length = done.length
  compiled : ∀ n i, done[n]? = some i → ∃ phase,
    inputs.CompiledFrom inventories tables n (inputs.bindings.getD i {}) phase
  plan : ∀ k n, tables.planPhaseByRegistration k = some n → ∃ i, done[n]? = some i ∧
    (inputs.bindings.getD i {}).phase.index = k

variable {binding : DeviceRateBindingSpec} {inventories : Inventories} {tables : PhaseTables}
  {phase : CompiledDeviceRatePhase}

/-- One more binding keeps what was compiled before. -/
theorem CompiledFrom.append {tables' : PhaseTables} {n : ℕ}
    (h : inputs.CompiledFrom inventories tables n binding phase) {record : CompiledDeviceRatePhase}
    (hphases : tables'.phases = tables.phases ++ [record]) {k m l : ℕ}
    (hk : tables.planPhaseByRegistration k = none) (hplan : tables'.planPhaseByRegistration =
      update tables.planPhaseByRegistration k (some m))
    (hused : tables'.backendUsed = update tables.backendUsed l true) :
    inputs.CompiledFrom inventories tables' n binding phase := by
  refine ⟨?_, h.phase_eq, h.budget, h.maximum, h.belongs, ?_, h.registered, h.source, ?_⟩
  · rw [hphases]
    exact getElem?_concat_eq_some.mpr (.inl h.record)
  · rw [hplan, update_of_ne, h.plan]
    intro heq
    have hsome := h.plan
    rw [heq, hk] at hsome
    cases hsome
  · obtain ⟨m, hm, hu⟩ := h.backend
    exact ⟨m, hm, by rw [hused, update_apply, hu, ite_self]⟩

/-- A binding with a compiled position is bound in the rate plan. -/
theorem compiledIndexOf_registered {idx : ℕ} (h : inputs.compiledIndexOf binding = some idx) :
    ∃ c ∈ inputs.ratePlan.bindings, c.phase = binding.phase := by
  rw [compiledIndexOf] at h
  split at h
  swap
  · cases h
  rename_i hbel
  obtain ⟨c, hc, hcbel, hcidx⟩ := foldlRecOn (motive := fun table : ℕ → Option ℕ =>
      ∀ k v, table k = some v → ∃ c ∈ inputs.ratePlan.bindings,
        c.phase.belongs inputs.graphOwner inputs.ratePlan.bindings.length = true ∧
          c.phase.index = k) _ _ (by simp) (fun table origin c hc k v hk => by
    split at hk
    · rename_i hcbel
      by_cases hke : k = c.phase.index
      · exact ⟨c, hc, hcbel, hke.symm⟩
      · rw [update_of_ne hke] at hk
        exact origin k v hk
    · exact origin k v hk) _ _ h
  exact ⟨c, hc, PhaseHandle.belongs_inj hcbel hbel hcidx⟩

/-- One turn of the loop over the bindings. -/
theorem compileBinding_records {done : List ℕ} {tables' : PhaseTables} {i : ℕ}
    (hinv : inputs.inventories = .ok inventories)
    (h : PhaseTables.Records inputs inventories done tables)
    (hstep : inputs.compileBinding inventories tables i = .ok tables') :
    PhaseTables.Records inputs inventories (done ++ [i]) tables' := by
  simp only [compileBinding, bind_eq_ok, orReject_eq_ok, reject_eq_ok, Unique.exists_iff] at hstep
  obtain ⟨source, hsource, declaration, -, compiledBinding, hcompiled, hvalid, position, hposition, -,
    -, compiled, -, -, waits, -, signals, -, hstep⟩ := hstep
  cases hstep
  simp only [bindingValid, Bool.not_eq_false, Bool.and_eq_true, Option.isNone_iff_eq_none]
    at hvalid
  obtain ⟨hmem, hphase⟩ := phaseSourceOf_eq_some hinv hsource
  have hnone := hvalid.2
  refine ⟨?_, fun n j hj => ?_, fun k n hk => ?_⟩
  · rw [length_append, length_append, h.length]
    rfl
  · rcases getElem?_concat_eq_some.mp hj with hj | ⟨rfl, rfl⟩
    · obtain ⟨phase, hcompiled⟩ := h.compiled n j hj
      exact ⟨phase, hcompiled.append rfl hnone rfl rfl⟩
    · rw [← h.length]
      have hrecord : ∀ record : CompiledDeviceRatePhase,
          (tables.phases ++ [record])[tables.phases.length]? = some record :=
        fun record => List.getElem?_concat_length
      refine ⟨_, ⟨hrecord _, ?_, ?_, ?_, hvalid.1.1.1.1.1.1.1, update_self .., ?_, ?_,
        ?_⟩⟩
      · rfl
      · rfl
      · rfl
      · rw [Option.bind_eq_some_iff] at hcompiled
        obtain ⟨idx, hidx, -⟩ := hcompiled
        exact compiledIndexOf_registered hidx
      · exact ⟨source, hmem, hphase, rfl⟩
      · exact ⟨position, hposition, update_self ..⟩
  · change update tables.planPhaseByRegistration _ _ k = some n at hk
    by_cases hke : k = (inputs.bindings.getD i {}).phase.index
    · rw [hke, update_self] at hk
      cases hk
      exact ⟨i, by rw [h.length]; exact List.getElem?_concat_length, hke.symm⟩
    · rw [update_of_ne hke] at hk
      obtain ⟨j, hj, hidx⟩ := h.plan k n hk
      exact ⟨j, getElem?_concat_eq_some.mpr (.inl hj), hidx⟩

theorem mem_bindingOrder {i : ℕ} : i ∈ inputs.bindingOrder ↔ i < inputs.bindings.length := by
  rw [bindingOrder, (perm_insertionSort _ _).mem_iff, List.mem_range]

/-- The tables of a successful compilation. -/
structure IsTables (inputs : DeviceRateInputs) (inventories : Inventories) (tables : PhaseTables) :
    Prop where
  inventories_eq : inputs.inventories = .ok inventories
  /-- every binding was compiled -/
  compiled : ∀ binding ∈ inputs.bindings, ∃ n phase,
    inputs.CompiledFrom inventories tables n binding phase
  /-- and nothing else -/
  plan : ∀ k n, tables.planPhaseByRegistration k = some n → ∃ binding ∈ inputs.bindings, ∃ phase,
    inputs.CompiledFrom inventories tables n binding phase ∧ binding.phase.index = k
  phases : ∀ n phase, tables.phases[n]? = some phase → ∃ binding ∈ inputs.bindings,
    inputs.CompiledFrom inventories tables n binding phase

theorem compileTables_isTables {result : Inventories × PhaseTables}
    (h : inputs.compileTables = .ok result) : inputs.IsTables result.1 result.2 := by
  simp only [compileTables, bind_eq_ok, reject_eq_ok, Unique.exists_iff] at h
  obtain ⟨-, inventories, hinv, tables, htables, -, h⟩ := h
  cases h
  have hrecords : PhaseTables.Records inputs inventories inputs.bindingOrder tables :=
    foldlM_invariant (P := fun done t => PhaseTables.Records inputs inventories done t) htables
      ⟨rfl, by simp, by simp⟩ fun _ _ _ _ _ _ hr hstep => compileBinding_records hinv hr hstep
  have hbinding : ∀ i, i ∈ inputs.bindingOrder → inputs.bindings.getD i {} ∈ inputs.bindings := by
    intro i hi
    rw [getD_eq_getElem _ _ (mem_bindingOrder.mp hi)]
    exact List.getElem_mem _
  refine ⟨hinv, fun binding hb => ?_, fun k n hk => ?_, fun n phase hn => ?_⟩
  · obtain ⟨i, hi, rfl⟩ := List.getElem_of_mem hb
    obtain ⟨n, hn⟩ := mem_iff_getElem?.mp (mem_bindingOrder.mpr hi)
    obtain ⟨phase, hcompiled⟩ := hrecords.compiled n i hn
    rw [getD_eq_getElem _ _ hi] at hcompiled
    exact ⟨n, phase, hcompiled⟩
  · obtain ⟨i, hi, hidx⟩ := hrecords.plan k n hk
    obtain ⟨phase, hcompiled⟩ := hrecords.compiled n i hi
    exact ⟨_, hbinding i (mem_of_getElem? hi), phase, hcompiled, hidx⟩
  · obtain ⟨hlt, -⟩ := List.getElem?_eq_some_iff.mp hn
    rw [hrecords.length] at hlt
    obtain ⟨phase', hcompiled⟩ := hrecords.compiled n _ (List.getElem?_eq_getElem hlt)
    obtain rfl := Option.some.inj (hcompiled.record.symm.trans hn)
    exact ⟨_, hbinding _ (List.getElem_mem hlt), hcompiled⟩

/-- Two compiled phases at one position are one. -/
theorem CompiledFrom.unique {n : ℕ} {binding' : DeviceRateBindingSpec}
    {phase' : CompiledDeviceRatePhase} (hc : inputs.CompiledFrom inventories tables n binding phase)
    (hc' : inputs.CompiledFrom inventories tables n binding' phase') :
    phase = phase' ∧ binding.phase = binding'.phase := by
  obtain rfl := Option.some.inj (hc.record.symm.trans hc'.record)
  exact ⟨rfl, hc.phase_eq.symm.trans hc'.phase_eq⟩

/-- A phase of the rate plan with the index of a compiled phase is that phase. -/
theorem IsTables.phase_eq_of_plan (h : inputs.IsTables inventories tables)
    (hreg : (inputs.ratePlan.bindings.map (·.phase.index)).Nodup) {b : CompiledRateBinding}
    (hb : b ∈ inputs.ratePlan.bindings) {n : ℕ}
    (hc : inputs.CompiledFrom inventories tables n binding phase)
    (hn : tables.planPhaseByRegistration b.phase.index = some n) : b.phase = phase.phase := by
  obtain ⟨binding', -, phase', hc', hidx⟩ := h.plan _ _ hn
  obtain ⟨-, hphase⟩ := hc.unique hc'
  obtain ⟨c, hcmem, hcphase⟩ := hc'.registered
  have hindex : b.phase.index = c.phase.index := by rw [hcphase, hidx]
  obtain rfl : b = c := inj_on_of_nodup_map hreg hb hcmem hindex
  rw [hc.phase_eq, hphase, hcphase]

end DeviceRateInputs

end RtRuntime


