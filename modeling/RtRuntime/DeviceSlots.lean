import RtRuntime.ActiveGroup
import RtRuntime.CrossRateTables

/-!
# Payload slots of device endpoints

A device side of a channel owns an envelope of a buffer, cut into slots of one stride, and a
release takes the slot of its ordinal modulo the batches in flight.  The compiler checks the end
of the last slot and that envelopes on one buffer stay apart; hence the slots do.
-/

namespace RtRuntime

/-- `device_endpoint_for_channel`. -/
def CompiledCrossRatePlan.deviceEndpointFor (plan : CompiledCrossRatePlan) (channelIndex : ℕ) :
    Option CompiledCrossRateDeviceEndpoint :=
  (plan.deviceEndpointIndexByChannel.getD channelIndex none).bind fun index =>
    plan.deviceEndpoints[index]?

/-- The offset of a slot, as every user of a payload computes it. -/
def CompiledCrossRateDeviceEndpoint.slotOffset (endpoint : CompiledCrossRateDeviceEndpoint)
    (payloadSlot : ℕ) : Option ℕ := do
  guard (payloadSlot < endpoint.slotCount.toNat)
  let relative ← checkedMultiply payloadSlot endpoint.slotStrideBytes.toNat
  checkedAdd endpoint.envelopeOffset.toNat relative

/-- The offset of the payload of a channel in a release. -/
def CompiledCrossRatePlan.payloadOffset (plan : CompiledCrossRatePlan) (active : ActivePlan)
    (channelIndex reference sequence : ℕ) : Option ℕ := do
  let slot ← active.devicePayloadSlot reference sequence
  let endpoint ← plan.deviceEndpointFor channelIndex
  endpoint.slotOffset slot

/-! ## One endpoint -/

/-- What `compile_device_endpoint` checks of a channel with `payloadSize` bytes. -/
structure CompiledCrossRateDeviceEndpoint.Fits (endpoint : CompiledCrossRateDeviceEndpoint)
    (payloadSize : ℕ) (buffer : CrossRateDeviceBufferSource) : Prop where
  buffer_eq : buffer.buffer = endpoint.buffer
  backend_eq : buffer.backend = endpoint.backend
  stride : payloadSize ≤ endpoint.slotStrideBytes.toNat
  representable : endpoint.envelopeOffset.toNat + endpoint.envelopeBytes.toNat ≤ u64Max
  last : ∀ finalEnd, finalEnd = endpoint.envelopeOffset.toNat +
      (endpoint.slotCount.toNat - 1) * endpoint.slotStrideBytes.toNat + payloadSize →
    finalEnd ≤ endpoint.envelopeOffset.toNat + endpoint.envelopeBytes.toNat ∧
      finalEnd ≤ buffer.bytes.toNat ∧ finalEnd ≤ buffer.storageSize

section Endpoint

variable {endpoint : CompiledCrossRateDeviceEndpoint} {payloadSize : ℕ}
  {buffer : CrossRateDeviceBufferSource} {slot offset : ℕ}

theorem endpointFits_spec {maximumInFlight : UInt32} {selector : CrossRateDeviceEndpointSelector}
    {reference : CompiledDeviceRatePayloadReference} (hsize : payloadSize ≤ u64Max)
    (h : endpointFits payloadSize maximumInFlight selector reference buffer = true) :
    reference.offset.toNat + reference.bytes.toNat ≤ u64Max ∧ ∀ finalEnd,
      finalEnd = reference.offset.toNat +
        (maximumInFlight.toNat - 1) * selector.slotStrideBytes.toNat + payloadSize →
      finalEnd ≤ reference.offset.toNat + reference.bytes.toNat ∧
        finalEnd ≤ buffer.bytes.toNat ∧ finalEnd ≤ buffer.storageSize := by
  have hsome : ∀ o : Option Bool, o.getD false = true → o = some true := by decide
  have h := hsome _ h
  simp only [Option.bind_eq_bind, Option.bind_eq_some_iff, checkedMultiply_eq_some] at h
  obtain ⟨delta, ⟨hdelta, rfl⟩, finalOffset, hoffset, finalEnd, hend, envelopeEnd, henvelope, h⟩ :=
    h
  obtain ⟨-, rfl⟩ := (checkedAdd_eq_some hdelta).mp hoffset
  obtain ⟨-, rfl⟩ := (checkedAdd_eq_some hsize).mp hend
  obtain ⟨hle, rfl⟩ := (checkedAdd_eq_some (toNat_le_u64Max _)).mp henvelope
  rw [Option.pure_def, Option.some.injEq, Bool.and_eq_true, Bool.and_eq_true, decide_eq_true_eq,
    decide_eq_true_eq, decide_eq_true_eq] at h
  refine ⟨hle, ?_⟩
  rintro finalEnd rfl
  exact ⟨h.1.1, h.1.2, h.2⟩

theorem compileDeviceEndpoint_fits {deviceRatePlan : Option CompiledDeviceRatePlan}
    {deviceBuffers : List CrossRateDeviceBufferSource} {channel : CrossRateChannelSpec}
    {producer : Bool}
    (h : compileDeviceEndpoint deviceRatePlan deviceBuffers channel producer = .ok endpoint) :
    ∃ buffer ∈ deviceBuffers, endpoint.Fits channel.payloadSize buffer := by
  simp only [compileDeviceEndpoint, bind_eq_ok, orReject_eq_ok, reject_eq_ok,
    Unique.exists_iff] at h
  obtain ⟨plan, -, -, record, -, -, reference, -, buffer, hbuffer, hchecks, h⟩ := h
  cases h
  simp only [Bool.or_eq_true, not_or, Bool.not_eq_true', Bool.not_eq_false] at hchecks
  obtain ⟨⟨-, hok⟩, hfits⟩ := hchecks
  simp only [endpointBufferOk, Bool.and_eq_true, decide_eq_true_eq] at hok
  have hfound : buffer.buffer = reference.buffer ∧ buffer.backend = reference.backend := by
    simpa using List.find?_some hbuffer
  obtain ⟨hle, hlast⟩ := endpointFits_spec (hok.1.1.2.trans (toNat_le_u64Max _)) hfits
  exact ⟨buffer, List.mem_of_find?_eq_some hbuffer, hfound.1, hfound.2, hok.1.1.2, hle, hlast⟩

namespace CompiledCrossRateDeviceEndpoint.Fits

/-- The slots end where the last one ends. -/
theorem slot_end (h : endpoint.Fits payloadSize buffer) (hslot : slot < endpoint.slotCount.toNat) :
    endpoint.envelopeOffset.toNat + slot * endpoint.slotStrideBytes.toNat + payloadSize ≤
        endpoint.envelopeOffset.toNat + endpoint.envelopeBytes.toNat ∧
      endpoint.envelopeOffset.toNat + slot * endpoint.slotStrideBytes.toNat + payloadSize ≤
        buffer.bytes.toNat ∧
      endpoint.envelopeOffset.toNat + slot * endpoint.slotStrideBytes.toNat + payloadSize ≤
        buffer.storageSize := by
  obtain ⟨henvelope, hbytes, hstorage⟩ := h.last _ rfl
  have hmul : slot * endpoint.slotStrideBytes.toNat ≤
      (endpoint.slotCount.toNat - 1) * endpoint.slotStrideBytes.toNat :=
    Nat.mul_le_mul_right _ (by omega)
  omega

/-- The offset of a slot does not wrap. -/
theorem slotOffset_eq_some (h : endpoint.Fits payloadSize buffer) :
    endpoint.slotOffset slot = some offset ↔ slot < endpoint.slotCount.toNat ∧
      offset = endpoint.envelopeOffset.toNat + slot * endpoint.slotStrideBytes.toNat := by
  simp only [slotOffset, Option.bind_eq_bind, Option.bind_eq_some_iff, Option.guard_eq_some',
    checkedMultiply_eq_some]
  constructor
  · rintro ⟨-, hslot, relative, ⟨hle, rfl⟩, hadd⟩
    exact ⟨hslot, ((checkedAdd_eq_some hle).mp hadd).2⟩
  · rintro ⟨hslot, rfl⟩
    obtain ⟨hend, -⟩ := h.slot_end hslot
    have hrange := h.representable
    have hle : slot * endpoint.slotStrideBytes.toNat ≤ u64Max := by omega
    exact ⟨(), hslot, _, ⟨hle, rfl⟩, (checkedAdd_eq_some hle).mpr ⟨by omega, rfl⟩⟩

/-- Two slots do not meet. -/
theorem slots_apart (h : endpoint.Fits payloadSize buffer) {slot' offset' : ℕ} (hne : slot ≠ slot')
    (hoffset : endpoint.slotOffset slot = some offset)
    (hoffset' : endpoint.slotOffset slot' = some offset') :
    offset + payloadSize ≤ offset' ∨ offset' + payloadSize ≤ offset := by
  obtain ⟨-, rfl⟩ := h.slotOffset_eq_some.mp hoffset
  obtain ⟨-, rfl⟩ := h.slotOffset_eq_some.mp hoffset'
  have hstride := h.stride
  have hnext : ∀ {a b : ℕ}, a < b → a * endpoint.slotStrideBytes.toNat +
      endpoint.slotStrideBytes.toNat ≤ b * endpoint.slotStrideBytes.toNat := by
    intro a b hab
    rw [← Nat.succ_mul]
    exact Nat.mul_le_mul_right _ hab
  rcases Nat.lt_or_gt_of_ne hne with hlt | hlt
  · have := hnext hlt
    omega
  · have := hnext hlt
    omega

end CompiledCrossRateDeviceEndpoint.Fits

end Endpoint

/-! ## All endpoints -/

namespace CrossRateInputs

variable {inputs : CrossRateInputs} {placed : List CompiledCrossRateDeviceEndpoint}
  {channel : CrossRateChannelSpec} {channelIndex : ℕ} {producer : Bool}
  {endpoint : CompiledCrossRateDeviceEndpoint}

/-- The envelopes of two endpoints do not meet. -/
def EnvelopesApart (prior endpoint : CompiledCrossRateDeviceEndpoint) : Prop :=
  prior.buffer = endpoint.buffer →
    prior.envelopeOffset.toNat + prior.envelopeBytes.toNat ≤ endpoint.envelopeOffset.toNat ∨
    endpoint.envelopeOffset.toNat + endpoint.envelopeBytes.toNat ≤ prior.envelopeOffset.toNat

theorem placeEndpoint_spec
    (h : inputs.placeEndpoint channel channelIndex producer placed = .ok endpoint) :
    endpoint.channelIndex = channelIndex ∧ (∃ buffer ∈ inputs.deviceBuffers,
      endpoint.Fits channel.payloadSize buffer) ∧
      ∀ prior ∈ placed, EnvelopesApart prior endpoint := by
  simp only [placeEndpoint, bind_eq_ok, orReject_eq_ok, forM_eq_ok, reject_eq_ok,
    Unique.exists_iff] at h
  obtain ⟨compiled, hcompiled, envelopeEnd, hend, hplaced, h⟩ := h
  obtain ⟨-, rfl⟩ := (checkedAdd_eq_some (toNat_le_u64Max _)).mp hend
  cases h
  have hok : compileDeviceEndpoint inputs.deviceRatePlan inputs.deviceBuffers channel producer =
      .ok compiled := by
    cases hc : compileDeviceEndpoint inputs.deviceRatePlan inputs.deviceBuffers channel
      producer with
    | ok other => simpa [withMessage, hc, Except.mapError] using hcompiled
    | error status => simp [withMessage, hc, Except.mapError] at hcompiled
  obtain ⟨buffer, hbuffer, hfits⟩ := compileDeviceEndpoint_fits hok
  refine ⟨rfl, ⟨buffer, hbuffer, hfits.1, hfits.2, hfits.3, hfits.4, hfits.5⟩, ?_⟩
  intro prior hprior hsame
  have hnot := hplaced prior hprior
  rw [envelopesOverlap] at hnot
  split at hnot
  · exact absurd ⟨hsame, rfl⟩ hnot
  · rename_i priorEnd hpriorEnd
    obtain ⟨-, rfl⟩ := (checkedAdd_eq_some (toNat_le_u64Max _)).mp hpriorEnd
    simp only [hsame, true_and, Bool.and_eq_true, decide_eq_true_eq, not_and_or, not_lt] at hnot
    exact hnot

theorem channelEndpoint_eq_some {producerDevice consumerDevice : Bool}
    (h : inputs.channelEndpoint channel channelIndex producerDevice consumerDevice placed =
      .ok (some endpoint)) :
    inputs.placeEndpoint channel channelIndex producerDevice placed = .ok endpoint := by
  rw [channelEndpoint] at h
  split at h
  · cases hplace : inputs.placeEndpoint channel channelIndex producerDevice placed with
    | ok other => simpa [hplace, Except.map] using h
    | error d => simp [hplace, Except.map] at h
  · cases h

/-- The endpoints of the channels in `done`. -/
structure EndpointsPlaced (inputs : CrossRateInputs) (done : List (CrossRateChannelSpec × ℕ))
    (plan : CompiledCrossRatePlan) : Prop where
  fits : ∀ endpoint ∈ plan.deviceEndpoints, ∃ entry ∈ done, entry.2 = endpoint.channelIndex ∧
    ∃ buffer ∈ inputs.deviceBuffers, endpoint.Fits entry.1.payloadSize buffer
  index : ∀ i k, plan.deviceEndpointIndexByChannel.getD i none = some k →
    ∃ endpoint, plan.deviceEndpoints[k]? = some endpoint ∧ endpoint.channelIndex = i
  apart : plan.deviceEndpoints.Pairwise EnvelopesApart

theorem compileChannel_placed {bindingByPhase : ℕ → Option ℕ} {plan plan' : CompiledCrossRatePlan}
    {done : List (CrossRateChannelSpec × ℕ)} {entry : CrossRateChannelSpec × ℕ}
    (h : inputs.EndpointsPlaced done plan)
    (hstep : inputs.compileChannel bindingByPhase plan entry = .ok plan') :
    inputs.EndpointsPlaced (done ++ [entry]) plan' := by
  simp only [compileChannel, bind_eq_ok, orReject_eq_ok, reject_eq_ok, Unique.exists_iff] at hstep
  obtain ⟨endpoint, hendpoint, -, pairs, -, bytes, -, store, -, hstep⟩ := hstep
  cases hstep
  have hold : ∀ endpoint ∈ plan.deviceEndpoints, ∃ e ∈ done ++ [entry],
      e.2 = endpoint.channelIndex ∧
        ∃ buffer ∈ inputs.deviceBuffers, endpoint.Fits e.1.payloadSize buffer := by
    intro endpoint hmem
    obtain ⟨e, he, hrest⟩ := h.fits endpoint hmem
    exact ⟨e, List.mem_append_left _ he, hrest⟩
  cases endpoint with
  | none => exact ⟨by simpa using hold, by simpa using h.index, by simpa using h.apart⟩
  | some endpoint =>
    obtain ⟨hindex, hfits, hapart⟩ := placeEndpoint_spec (channelEndpoint_eq_some hendpoint)
    refine ⟨forall_mem_concat.mpr ⟨hold, entry, by simp, hindex.symm, hfits⟩,
      fun i k hk => ?_, ?_⟩
    · change (plan.deviceEndpointIndexByChannel.set entry.2 _).getD i none = some k at hk
      change ∃ other, (plan.deviceEndpoints ++ [endpoint])[k]? = some other ∧ _
      rw [List.getD_eq_getElem?_getD, List.getElem?_set] at hk
      split at hk
      · rename_i heq
        split at hk
        · cases hk
          exact ⟨endpoint, List.getElem?_concat_length, hindex.trans heq⟩
        · cases hk
      · rw [← List.getD_eq_getElem?_getD] at hk
        obtain ⟨other, hother, hi⟩ := h.index i k hk
        exact ⟨other, getElem?_concat_eq_some.mpr (.inl hother), hi⟩
    · exact pairwise_concat.mpr ⟨h.apart, hapart⟩

theorem compileCrossRateData_placed {output plan : CompiledCrossRatePlan}
    {diagnostic : RateCompileDiagnostic}
    (h : compileCrossRateData inputs output = ⟨.ok, plan, diagnostic⟩) :
    inputs.EndpointsPlaced inputs.channels.zipIdx plan := by
  have hplan : (compileCrossRateData inputs output).output = plan := by rw [h]
  have hstatus : (compileCrossRateData inputs output).status = .ok := by rw [h]
  by_cases hchannels : inputs.channels = []
  · have hempty : plan = {} := by
      rw [← hplan]
      unfold compileCrossRateData at h ⊢
      split at h
      · cases h
      · simp_all
    rw [hempty]
    exact ⟨by simp, by simp, List.Pairwise.nil⟩
  · have hok := compileCrossRateData_eq_ok hchannels hstatus
    simp only [hplan, compilePlan, bind_eq_ok, reject_eq_ok, Unique.exists_iff] at hok
    obtain ⟨-, -, bindingByPhase, -, totals, -, hfold⟩ := hok
    refine foldlM_invariant (P := inputs.EndpointsPlaced) hfold ⟨by simp, ?_, List.Pairwise.nil⟩
      fun done entry rest plan plan' _ hdone hstep => compileChannel_placed hdone hstep
    intro i k hk
    split at hk
    · simp at hk
    · simp at hk

end CrossRateInputs

/-- In a compiled plan the slots of a device endpoint lie in its envelope and in the buffer, at
offsets that do not wrap; slots of one channel, and of two channels on one buffer, stay apart; and
the payload of every release is in one of these slots. -/
theorem device_slots_apart (inputs : CrossRateInputs) (output plan : CompiledCrossRatePlan)
    (diagnostic : RateCompileDiagnostic)
    (hok : compileCrossRateData inputs output = ⟨.ok, plan, diagnostic⟩) :
    (∀ i endpoint, plan.deviceEndpointFor i = some endpoint →
      ∃ channel, inputs.channels[i]? = some channel ∧ ∃ buffer ∈ inputs.deviceBuffers,
        buffer.buffer = endpoint.buffer ∧ buffer.backend = endpoint.backend ∧
        (∀ slot < endpoint.slotCount.toNat, ∃ offset, endpoint.slotOffset slot = some offset ∧
          offset = endpoint.envelopeOffset.toNat + slot * endpoint.slotStrideBytes.toNat ∧
          offset + channel.payloadSize ≤
            endpoint.envelopeOffset.toNat + endpoint.envelopeBytes.toNat ∧
          offset + channel.payloadSize ≤ buffer.bytes.toNat ∧
          offset + channel.payloadSize ≤ buffer.storageSize) ∧
        ∀ slot slot' offset offset', slot ≠ slot' → endpoint.slotOffset slot = some offset →
          endpoint.slotOffset slot' = some offset' →
          offset + channel.payloadSize ≤ offset' ∨ offset' + channel.payloadSize ≤ offset) ∧
    (∀ i j endpoint endpoint' channel channel' slot slot' offset offset', i ≠ j →
      plan.deviceEndpointFor i = some endpoint → plan.deviceEndpointFor j = some endpoint' →
      endpoint.buffer = endpoint'.buffer →
      inputs.channels[i]? = some channel → inputs.channels[j]? = some channel' →
      endpoint.slotOffset slot = some offset → endpoint'.slotOffset slot' = some offset' →
      offset + channel.payloadSize ≤ offset' ∨ offset' + channel'.payloadSize ≤ offset) ∧
    ∀ active i reference sequence offset,
      plan.payloadOffset active i reference sequence = some offset →
      ∃ endpoint slot, plan.deviceEndpointFor i = some endpoint ∧
        slot < endpoint.slotCount.toNat ∧ endpoint.slotOffset slot = some offset := by
  have hplaced := CrossRateInputs.compileCrossRateData_placed hok
  have hfits : ∀ {i endpoint}, plan.deviceEndpointFor i = some endpoint →
      ∃ k : ℕ, plan.deviceEndpoints[k]? = some endpoint ∧ endpoint.channelIndex = i ∧
      ∃ channel, inputs.channels[i]? = some channel ∧ ∃ buffer ∈ inputs.deviceBuffers,
        endpoint.Fits channel.payloadSize buffer := by
    intro i endpoint hendpoint
    obtain ⟨k, hk, hmem⟩ := Option.bind_eq_some_iff.mp hendpoint
    obtain ⟨other, hother, rfl⟩ := hplaced.index i k hk
    obtain rfl := Option.some.inj (hother.symm.trans hmem)
    obtain ⟨entry, hentry, hindex, hrest⟩ := hplaced.fits _ (List.mem_of_getElem? hmem)
    refine ⟨k, hmem, rfl, entry.1, ?_, hrest⟩
    rw [← hindex]
    exact List.mem_zipIdx_iff_getElem?.mp hentry
  refine ⟨fun i endpoint hendpoint => ?_, ?_, ?_⟩
  · obtain ⟨-, -, -, channel, hchannel, buffer, hbuffer, h⟩ := hfits hendpoint
    refine ⟨channel, hchannel, buffer, hbuffer, h.buffer_eq, h.backend_eq, fun slot hslot => ?_,
      fun slot slot' offset offset' => h.slots_apart⟩
    exact ⟨_, h.slotOffset_eq_some.mpr ⟨hslot, rfl⟩, rfl, h.slot_end hslot⟩
  · intro i j endpoint endpoint' channel channel' slot slot' offset offset' hne hi hj hsame
      hchannel hchannel' hoffset hoffset'
    obtain ⟨k, hk, hki, c, hc, buffer, -, h⟩ := hfits hi
    obtain ⟨l, hl, hlj, c', hc', buffer', -, h'⟩ := hfits hj
    obtain rfl := Option.some.inj (hchannel.symm.trans hc)
    obtain rfl := Option.some.inj (hchannel'.symm.trans hc')
    obtain ⟨hslot, rfl⟩ := h.slotOffset_eq_some.mp hoffset
    obtain ⟨hslot', rfl⟩ := h'.slotOffset_eq_some.mp hoffset'
    have hend := (h.slot_end hslot).1
    have hend' := (h'.slot_end hslot').1
    -- the two envelopes were compared when the later one was placed
    have hkl : k ≠ l := by
      rintro rfl
      obtain rfl := Option.some.inj (hk.symm.trans hl)
      exact hne (hki.symm.trans hlj)
    have hpairs := List.pairwise_iff_getElem.mp hplaced.apart
    obtain ⟨hklt, rfl⟩ := List.getElem?_eq_some_iff.mp hk
    obtain ⟨hllt, rfl⟩ := List.getElem?_eq_some_iff.mp hl
    rcases Nat.lt_or_gt_of_ne hkl with hlt | hlt
    · have := hpairs k l hklt hllt hlt hsame
      omega
    · have := hpairs l k hllt hklt hlt hsame.symm
      omega
  · intro active i reference sequence offset h
    simp only [CompiledCrossRatePlan.payloadOffset, Option.bind_eq_bind,
      Option.bind_eq_some_iff] at h
    obtain ⟨slot, -, endpoint, hendpoint, hoffset⟩ := h
    obtain ⟨-, -, -, channel, -, buffer, -, hfit⟩ := hfits hendpoint
    exact ⟨endpoint, slot, hendpoint, (hfit.slotOffset_eq_some.mp hoffset).1, hoffset⟩

/-- A device phase that writes two slots of 8 bytes behind the first 16 bytes of a buffer. -/
def slottedInputs : CrossRateInputs where
  graphOwner := 7
  phaseCount := 2
  ratePlan := (compileRateTimeline 7 2 [PhaseHandle.make 7 0, PhaseHandle.make 7 1]
    [{ name := ['a'], periodNs := 2, substepCount := 1, relativeDeadlineNs := 1 },
      { name := ['b'], periodNs := 3, substepCount := 1, relativeDeadlineNs := 3 }]
    [{ phase := PhaseHandle.make 7 0, domain := RateDomainHandle.make 7 0, phaseKind := .device },
      { phase := PhaseHandle.make 7 1, domain := RateDomainHandle.make 7 1 }] {}).output
  channels := [{
    name := ['x']
    producer := PhaseHandle.make 7 0
    consumer := PhaseHandle.make 7 1
    payloadSize := 4
    initialSample := [0, 0, 0, 0]
    producerDevice := ⟨some 0, 8⟩ }]
  deviceRatePlan := some {
    phases := [{ phase := PhaseHandle.make 7 0, maximumInFlight := 2, payloadReferenceCount := 1 }]
    payloadReferences := [{
      role := .output, access := rtfwDeviceAccessWrite, offset := 16, bytes := 16 }] }
  deviceBuffers := [{
    storageSize := 32
    bytes := 32
    access := rtfwDeviceBufferHostRead
    coherency := memoryCoherencyHostCoherent }]
  snapshotSlotCounts := []

/-- The second slot begins at offset 24 and the first ends before. -/
theorem device_slots_apart_two : ∃ plan diagnostic endpoint,
    compileCrossRateData slottedInputs {} = ⟨.ok, plan, diagnostic⟩ ∧
      plan.deviceEndpointFor 0 = some endpoint ∧ endpoint.slotOffset 1 = some 24 ∧
      ∃ channel, slottedInputs.channels[0]? = some channel ∧
        (16 + channel.payloadSize ≤ 24 ∨ 24 + channel.payloadSize ≤ 16) := by
  have hok : compileCrossRateData slottedInputs {} = ⟨.ok,
      (compileCrossRateData slottedInputs {}).output,
      (compileCrossRateData slottedInputs {}).diagnostic⟩ := by decide +kernel
  obtain ⟨endpoint, hendpoint, hfirst, hsecond⟩ : ∃ endpoint,
      (compileCrossRateData slottedInputs {}).output.deviceEndpointFor 0 = some endpoint ∧
        endpoint.slotOffset 0 = some 16 ∧ endpoint.slotOffset 1 = some 24 :=
    ⟨{ producer := true, phase := PhaseHandle.make 7 0, envelopeOffset := 16, envelopeBytes := 16,
       slotStrideBytes := 8, slotCount := 2 }, by decide +kernel, by decide, by decide⟩
  obtain ⟨channel, hchannel, -, -, -, -, -, hapart⟩ :=
    (device_slots_apart slottedInputs {} _ _ hok).1 0 endpoint hendpoint
  exact ⟨_, _, endpoint, hok, hendpoint, hsecond, channel, hchannel,
    hapart 0 1 16 24 (by decide) hfirst hsecond⟩

end RtRuntime
