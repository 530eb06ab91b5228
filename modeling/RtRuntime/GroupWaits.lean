import RtRuntime.BatchTickets
import RtRuntime.DispatchAdmission
import RtRuntime.DispatchGroups

/-!
# Waiting for prerequisites

A record waits for the device records that the compiler has stored for it. For each
prerequisite of its phase that is the first device record of the group; the later substeps
of the prerequisite are not stored. Where a prerequisite has one substep, the batches of all
prerequisites have completed when a record starts. With more substeps a record can start
while a batch of its prerequisite is open.
-/

namespace RtRuntime

open Function StepContext List

variable {ω ε : Type} [DecidableEq ε]

namespace StepContext

variable (ctx : StepContext ω ε)

/-- A record of a group that is executed from `s` starts in `started`: the records before it
have run, its waits are over, and its callback or its submission comes next. -/
def RecordStarts (due : DueRelease) (s : StepState ω ε) (reference : ℕ)
    (started : StepState ω ε) : Prop :=
  ∃ done rest ran waited begun slot,
    groupReferences due.group = done ++ reference :: rest ∧
    done.foldlM (ctx.runRecord due) s = .ok ran ∧
    (ctx.plan.dependenciesOf reference).foldlM (ctx.waitForReference due.sequence) ran =
      .ok waited ∧
    ctx.beginRecord due waited reference = .ok begun ∧
    ctx.prepareRecord due begun reference = .ok (started, slot)

/-- A batch that the record has submitted since `s` was waited for, with success, before
`t`. -/
def BatchCompleted (s t : StepState ω ε) (reference : ℕ) : Prop :=
  ∃ ticket u, s.trace <+: u.trace ∧ .accepted reference ticket ∈ u.trace.drop s.trace.length ∧
    (ctx.finishBatch u reference ticket).1 = .ok ∧
    (ctx.finishBatch u reference ticket).2.trace <+: t.trace

/-- Every device record that has run since `s` holds the ticket of its batch, or the batch
has completed. -/
structure Accounted (s : StepState ω ε) (done : List ℕ) (t : StepState ω ε) : Prop where
  later : s.trace <+: t.trace
  batches : ∀ r ∈ done, (ctx.plan.release r).phaseKind = .device →
    (∃ ticket, t.tickets r = some ticket ∧ .accepted r ticket ∈ t.trace.drop s.trace.length) ∨
      t.tickets r = none ∧ ctx.BatchCompleted s t r

variable {ctx} {due : DueRelease} {s t t' : StepState ω ε} {done : List ℕ}

variable {reference : ℕ}

theorem BatchCompleted.mono (h : ctx.BatchCompleted s t reference) (hle : t.trace <+: t'.trace) :
    ctx.BatchCompleted s t' reference := by
  obtain ⟨ticket, u, hlater, haccepted, hok, htrace⟩ := h
  exact ⟨ticket, u, hlater, haccepted, hok, htrace.trans hle⟩

omit [DecidableEq ε] in
theorem mem_drop_of_prefix {event : ActiveEvent} (h : s.trace <+: t.trace)
    (hle : t.trace <+: t'.trace) (hmem : event ∈ t.trace.drop s.trace.length) :
    event ∈ t'.trace.drop s.trace.length := by
  obtain ⟨later, hlater⟩ := hle
  rw [← hlater, drop_append_of_le_length h.length_le]
  exact mem_append_left _ hmem

section

variable (h : ctx.Accounted s done t)
include h

/-- Tickets of other records and a longer trace keep the account of a record. -/
theorem Accounted.keeps {r : ℕ} (hle : t.trace <+: t'.trace)
    (hr : r ∈ done) (hdevice : (ctx.plan.release r).phaseKind = .device)
    (hticket : t'.tickets r = t.tickets r) :
    (∃ ticket, t'.tickets r = some ticket ∧ .accepted r ticket ∈ t'.trace.drop s.trace.length) ∨
      t'.tickets r = none ∧ ctx.BatchCompleted s t' r := by
  rw [hticket]
  rcases h.batches r hr hdevice with ⟨ticket, hsome, haccepted⟩ | ⟨hnone, hcompleted⟩
  · exact .inl ⟨ticket, hsome, mem_drop_of_prefix h.later hle haccepted⟩
  · exact .inr ⟨hnone, hcompleted.mono hle⟩

theorem Accounted.congr (hsame : SameBatches t t') :
    ctx.Accounted s done t' := by
  have hle : t.trace <+: t'.trace := by rw [hsame.trace]
  exact ⟨h.later.trans hle, fun r hr hdevice => h.keeps hle hr hdevice (by rw [hsame.tickets])⟩

/-- A wait that succeeds completes the batch of its record. -/
theorem Accounted.wait {sequence : ℕ}
    (hwait : ctx.waitForReference sequence t reference = .ok t') :
    ctx.Accounted s done t' ∧ t'.tickets = update t.tickets reference none := by
  unfold waitForReference at hwait
  cases hticket : t.tickets reference with
  | none =>
    rw [hticket] at hwait
    cases hwait
    exact ⟨h, by rw [← hticket, update_eq_self]⟩
  | some ticket =>
    simp only [hticket] at hwait
    split at hwait
    next hok =>
      cases hwait
      obtain ⟨_, _, _, _, rest, hstate, -⟩ := ctx.finishBatch_frame t reference ticket
      have htrace : t.trace <+: (ctx.finishBatch t reference ticket).2.trace := by
        rw [hstate]
        exact prefix_append _ _
      have htickets : (ctx.finishBatch t reference ticket).2.tickets =
          update t.tickets reference none := by rw [hstate]
      refine ⟨⟨h.later.trans htrace, fun r hr hdevice => ?_⟩, htickets⟩
      by_cases hne : r = reference
      · subst hne
        refine .inr ⟨by rw [htickets, update_self], ?_⟩
        rcases h.batches r hr hdevice with ⟨held, hheld, haccepted⟩ | ⟨hnone, -⟩
        · obtain rfl := Option.some.inj (hticket.symm.trans hheld)
          exact ⟨ticket, t, h.later, haccepted, hok, prefix_refl _⟩
        · rw [hticket] at hnone
          cases hnone
      · exact h.keeps htrace hr hdevice (by rw [htickets, update_of_ne hne])
    · cases hwait

/-- The waits of a record. -/
theorem Accounted.waits {sequence : ℕ} {references : List ℕ}
    (hwaits : references.foldlM (ctx.waitForReference sequence) t = .ok t') :
    ctx.Accounted s done t' ∧ ∀ r ∈ references, t'.tickets r = none := by
  refine foldlM_invariant (P := fun waited u => ctx.Accounted s done u ∧
    ∀ r ∈ waited, u.tickets r = none) hwaits ⟨h, forall_mem_nil _⟩ ?_
  rintro waited reference rest u u' - ⟨hu, hnone⟩ hwait
  obtain ⟨hu', htickets⟩ := hu.wait hwait
  rw [htickets]
  refine ⟨hu', forall_mem_concat.mpr ⟨fun r hr => ?_, update_self ..⟩⟩
  by_cases hne : r = reference
  · rw [hne, update_self]
  · rw [update_of_ne hne, hnone r hr]

end

/-- The functions between the waits and the callback leave tickets and trace alone. -/
theorem starts_sameBatches {slot : ℕ} {begun : StepState ω ε}
    (hbegin : ctx.beginRecord due t reference = .ok begun)
    (hprepare : ctx.prepareRecord due begun reference = .ok (t', slot)) : SameBatches t t' :=
  ((beginRecord_ensures (Q := fun _ => True) fun _ => trivial).of_ok hbegin).trans
    ((prepareRecord_ensures (Q := fun _ => True) fun _ _ _ _ => trivial).of_ok hprepare)

/-- A device record that has run holds the ticket of its batch. -/
theorem Accounted.call {payloadSlot : ℕ} {outcome : RunOutcome} (h : ctx.Accounted s done t)
    (hnew : reference ∉ done)
    (hcall : ctx.callRecord due t reference payloadSlot = .ok (t', outcome)) :
    ctx.Accounted s (done ++ [reference]) t' := by
  set reply := ctx.machine.runSelected t.world (ctx.releaseContext due t reference payloadSlot)
    with hreply
  have htrace : t.trace <+: (ctx.returnFrom due t reference reply).trace := prefix_append _ _
  simp only [callRecord, ← hreply] at hcall
  split at hcall
  · cases hcall
  · split at hcall
    next hdevice =>
      split at hcall
      · cases hcall
      next ticket hticket =>
        obtain ⟨rfl, rfl⟩ := Prod.mk.inj (Except.ok.inj hcall)
        refine ⟨h.later.trans htrace, forall_mem_concat.mpr
          ⟨fun r hmem hrdevice => ?_, fun _ => .inl ⟨ticket, update_self .., ?_⟩⟩⟩
        · have hne : r ≠ reference := fun heq => hnew (heq ▸ hmem)
          exact h.keeps htrace hmem hrdevice (update_of_ne hne _ _)
        · have hlength := h.later.length_le
          change _ ∈ (ctx.returnFrom due t reference reply).trace.drop _
          rw [returnFrom_trace, hticket, drop_append_of_le_length hlength]
          simp
    next hcpu =>
      obtain ⟨rfl, rfl⟩ := Prod.mk.inj (Except.ok.inj hcall)
      exact ⟨h.later.trans htrace, forall_mem_concat.mpr ⟨fun r hmem hrdevice =>
        h.keeps htrace hmem hrdevice rfl, fun hdevice => absurd hdevice hcpu⟩⟩

/-- One record of a group. -/
theorem Accounted.record (h : ctx.Accounted s done t) (hnew : reference ∉ done)
    (hrun : ctx.runRecord due t reference = .ok t') : ctx.Accounted s (done ++ [reference]) t' := by
  simp only [runRecord, bind_eq_ok] at hrun
  obtain ⟨waited, hwaits, begun, hbegin, ⟨prepared, slot⟩, hprepare, ⟨called, outcome⟩, hcall,
    published, hpublished, hcommitted⟩ := hrun
  have hstarted := (h.waits hwaits).1.congr (starts_sameBatches hbegin hprepare)
  have hpublishes : SameBatches called published :=
    (publications_ensures (Q := fun _ => True) fun _ _ _ _ => trivial).of_ok hpublished
  have hcommits : SameBatches published t' :=
    (commits_ensures (Q := fun _ => True) fun _ _ _ => trivial).of_ok hcommitted
  exact ((hstarted.call hnew hcall).congr hpublishes).congr hcommits

/-- When a record starts, the batches of the device records it waits for have completed. -/
theorem RecordStarts.completed {started : StepState ω ε}
    (h : ctx.RecordStarts due s reference started) {prerequisite : ℕ}
    (hgroup : prerequisite ∈ groupReferences due.group) (hlt : prerequisite < reference)
    (hdevice : (ctx.plan.release prerequisite).phaseKind = .device)
    (hwaits : prerequisite ∈ ctx.plan.dependenciesOf reference) :
    started.tickets prerequisite = none ∧ ctx.BatchCompleted s started prerequisite := by
  obtain ⟨done, rest, ran, waited, begun, slot, hrefs, hran, hwaited, hbegin, hprepare⟩ := h
  have hnodup : (groupReferences due.group).Nodup := nodup_range'
  have haccounted : ctx.Accounted s done ran := by
    refine foldlM_invariant (P := fun done u => ctx.Accounted s done u) hran
      ⟨prefix_refl _, forall_mem_nil _⟩ ?_
    intro earlier r later u u' hdone hu hrun
    refine hu.record ?_ hrun
    rw [hrefs, hdone] at hnodup
    intro hmem
    simp only [nodup_append, mem_append, mem_cons] at hnodup
    exact hnodup.1.2.2 r hmem r (.inl rfl) rfl
  obtain ⟨hwaiting, hnone⟩ := haccounted.waits hwaited
  have hsame := starts_sameBatches hbegin hprepare
  have hstarted := hwaiting.congr hsame
  have hticket : started.tickets prerequisite = none := by
    rw [hsame.tickets]
    exact hnone prerequisite hwaits
  rcases hstarted.batches prerequisite ((mem_done_iff hrefs _).mpr ⟨hgroup, hlt⟩) hdevice with
    ⟨ticket, hsome, -⟩ | hcompleted
  · rw [hticket] at hsome
    cases hsome
  · exact hcompleted

end StepContext

/-! ## Finalized plans -/

/-- The plan is what the compilers produced from these dispatch inputs. -/
structure ActivePlan.CompiledFrom (plan : ActivePlan) (inputs : DispatchInputs) : Prop where
  timeline : ∃ graphOwner phaseCount compiledOrder domains bindings output, domains ≠ [] ∧
    (compileRateTimeline graphOwner phaseCount compiledOrder domains bindings output).status =
      .ok ∧
    (compileRateTimeline graphOwner phaseCount compiledOrder domains bindings output).output =
      plan.ratePlan
  rates : inputs.ratePlan = plan.ratePlan
  admits : plan.Admits inputs.deviceRatePlan
  dispatch : ∃ output, (compileRateDispatch inputs output).status = .ok ∧
    (compileRateDispatch inputs output).output = plan.dispatch

theorem ActivePlan.finalized_iff {plan : ActivePlan} :
    plan.Finalized ↔ ∃ inputs, plan.CompiledFrom inputs := by
  constructor
  · rintro ⟨htimeline, inputs, output, hrates, hadmits, hok, houtput⟩
    exact ⟨inputs, htimeline, hrates, hadmits, output, hok, houtput⟩
  · rintro ⟨inputs, htimeline, hrates, hadmits, output, hok, houtput⟩
    exact ⟨htimeline, inputs, output, hrates, hadmits, hok, houtput⟩

namespace ActivePlan.CompiledFrom

variable {plan : ActivePlan} {inputs : DispatchInputs} (h : plan.CompiledFrom inputs)
include h

theorem isTimeline : IsTimeline plan.ratePlan := by
  obtain ⟨_, _, _, _, _, _, hne, hok, hplan⟩ := h.timeline
  rw [← hplan]
  exact compileRateTimeline_isTimeline hne hok

theorem compiled : inputs.compilePlan = .ok plan.dispatch := by
  obtain ⟨output, hok, hplan⟩ := h.dispatch
  cases hcompile : inputs.compilePlan with
  | ok candidate =>
    rw [compileRateDispatch, hcompile] at hplan
    rw [← hplan]
  | error diagnostic =>
    rw [compileRateDispatch, hcompile] at hok
    exact absurd hok (DispatchInputs.compilePlan_errors diagnostic hcompile).1

theorem grouped : DispatchInputs.Grouped inputs plan.dispatch :=
  DispatchInputs.compilePlan_grouped h.compiled

/-- The binding of a record's phase has the kind of the record and the domain of its
substeps. -/
theorem binding_of_release {reference : ℕ}
    (hlt : reference < plan.ratePlan.releases.length) :
    ∃ binding ∈ plan.ratePlan.bindings, binding.phase = (plan.release reference).phase ∧
      binding.phaseKind = (plan.release reference).phaseKind ∧
      (plan.domain binding.domain.index).substepCount = (plan.release reference).substepCount := by
  rw [ActivePlan.release, getD_eq_getElem _ _ hlt]
  obtain ⟨i, d, k, b, s, hd, -, hb, rfl, -, hr⟩ :=
    (h.isTimeline.mem_releases _).mp (getElem_mem hlt)
  rw [hr]
  refine ⟨b, hb, rfl, rfl, ?_⟩
  rw [ActivePlan.domain, getD_eq_getElem?_getD, hd]
  rfl

end ActivePlan.CompiledFrom

/-- Where every prerequisite that is a device phase belongs to a domain with one substep, a
record of any group starts only after the batches of all earlier records of its
prerequisites have been waited for with success. -/
theorem prerequisites_completed (plan : ActivePlan) (inputs : DispatchInputs)
    (hplan : plan.CompiledFrom inputs)
    (hsubsteps : ∀ dependency ∈ inputs.dependencies, ∀ binding ∈ plan.ratePlan.bindings,
      binding.phase = dependency.prerequisite → binding.phaseKind = .device →
        (plan.domain binding.domain.index).substepCount = 1)
    (ctx : StepContext ω ε) (hctx : ctx.plan = plan) (due : DueRelease)
    (hgroup : due.group ∈ plan.dispatch.groups) (s : StepState ω ε) (reference : ℕ)
    (started : StepState ω ε) (hstarts : ctx.RecordStarts due s reference started) :
    ∀ dependency ∈ inputs.dependencies, dependency.dependent = (plan.release reference).phase →
      ∀ prerequisite ∈ StepContext.groupReferences due.group, prerequisite < reference →
        (plan.release prerequisite).phase = dependency.prerequisite →
        (plan.release prerequisite).phaseKind = .device →
          started.tickets prerequisite = none ∧ ctx.BatchCompleted s started prerequisite := by
  intro dependency hdependency hdependent prerequisite hprerequisite hlt hphase hdevice
  have hgrouped := hplan.grouped
  have hrelease : ∀ r, inputs.ratePlan.releases.getD r {} = plan.release r := by
    intro r
    rw [hplan.rates]
    rfl
  have hreference : reference ∈ groupReferences due.group := by
    obtain ⟨done, rest, _, _, _, _, hrefs, -⟩ := hstarts
    rw [hrefs]
    simp
  have hlength : ∀ r ∈ groupReferences due.group,
      r < plan.ratePlan.releases.length := by
    intro r hr
    rw [← hplan.rates]
    exact (hgrouped.members due.group hgroup r hr).1
  obtain ⟨binding, hbinding, hbphase, hbkind, hcount⟩ :=
    hplan.binding_of_release (hlength prerequisite hprerequisite)
  have hone := hsubsteps dependency hdependency binding hbinding (hbphase.trans hphase)
    (hbkind.trans hdevice)
  -- the group has no other record of the prerequisite, so the compiler has stored this one
  have hunique : ∀ r ∈ groupReferences due.group,
      (plan.release r).phase = dependency.prerequisite → r = prerequisite := by
    intro r hr hrphase
    refine hgrouped.single_record (by rw [hplan.rates]; exact hplan.isTimeline) hgroup hr
      hprerequisite (by rw [hrelease, hrelease, hrphase, hphase]) ?_
    intro r' hr' hsame
    rw [hrelease, hrelease] at hsame
    obtain ⟨binding', hbinding', hbphase', -, hcount'⟩ := hplan.binding_of_release (hlength r' hr')
    obtain rfl := inj_on_of_nodup_map hplan.isTimeline.binding_phase hbinding' hbinding
      (by rw [hbphase', hbphase, hsame])
    rw [hrelease, ← hcount', hone]
  have hwaits : prerequisite ∈ plan.dependenciesOf reference := by
    refine hgrouped.waits due.group hgroup reference hreference dependency hdependency
      (by rw [hrelease]; exact hdependent) prerequisite ?_
    simp only [groupReferences, mem_range'_1] at hprerequisite hreference hunique
    cases hfind : (range' due.group.firstReferenceIndex
        (reference - due.group.firstReferenceIndex)).find? fun earlier =>
          (inputs.ratePlan.releases.getD earlier {}).phase = dependency.prerequisite &&
            (inputs.ratePlan.releases.getD earlier {}).phaseKind = .device with
    | none =>
      have hnot := find?_eq_none.mp hfind prerequisite (by rw [mem_range'_1]; omega)
      rw [hrelease, hphase, hdevice] at hnot
      simp at hnot
    | some found =>
      have hmem := mem_of_find?_eq_some hfind
      have hfound := find?_some hfind
      rw [mem_range'_1] at hmem
      simp only [hrelease, Bool.and_eq_true, decide_eq_true_eq] at hfound
      rw [hunique found (by omega) hfound.1]
  subst hctx
  exact hstarts.completed hprerequisite hlt hdevice hwaits

/-! ## A prerequisite with two substeps -/

def substepTimeline (substeps : UInt32) : CompiledRatePlan :=
  (compileRateTimeline 7 2 [PhaseHandle.make 7 0, PhaseHandle.make 7 1]
    [{ name := ['a'], periodNs := 10, substepCount := substeps, relativeDeadlineNs := 10,
       budgetWcetNs := 1, lateAction := .skip }]
    [{ phase := PhaseHandle.make 7 0, domain := RateDomainHandle.make 7 0, phaseKind := .device },
      { phase := PhaseHandle.make 7 1, domain := RateDomainHandle.make 7 0 }] {}).output

def substepDevice (substeps : UInt32) : DeviceRateInputs :=
  { pipelineDevice with
    ratePlan := substepTimeline substeps
    backends := [{
      backend := DeviceBackendHandle.make 7 0
      capabilities := {
        maxInFlightBatches := 2
        maxCommandsPerBatch := 1
        maxSignalPoints := 1
        completionBatchCapacity := 2 }
      completionTimestampDomainIdentity := 1
      completionTimestampDomainValid := true }]
    bindings := [{
      phase := PhaseHandle.make 7 0
      domain := RateDomainHandle.make 7 0
      completionBudgetNs := 5
      maximumInFlight := 2 }] }

/-- The CPU phase depends on the device phase. -/
def substepDispatch (substeps : UInt32) : DispatchInputs :=
  { pipelineDispatch with
    ratePlan := substepTimeline substeps
    dependencies := [⟨PhaseHandle.make 7 0, PhaseHandle.make 7 1⟩]
    deviceRatePlan := some (compileDeviceRatePlan (substepDevice substeps) {}).output }

/-- One domain of period 10 with a device phase and a CPU phase that depends on it. -/
def substepPlan (substeps : UInt32) : ActivePlan where
  ratePlan := substepTimeline substeps
  dispatch := (compileRateDispatch (substepDispatch substeps) {}).output
  devicePhases := (compileDeviceRatePlan (substepDevice substeps) {}).output.phases

theorem substepPlan_compiled (substeps : UInt32)
    (htimeline : (compileRateTimeline 7 2 [PhaseHandle.make 7 0, PhaseHandle.make 7 1]
      [{ name := ['a'], periodNs := 10, substepCount := substeps, relativeDeadlineNs := 10,
         budgetWcetNs := 1, lateAction := .skip }]
      [{ phase := PhaseHandle.make 7 0, domain := RateDomainHandle.make 7 0, phaseKind := .device },
        { phase := PhaseHandle.make 7 1, domain := RateDomainHandle.make 7 0 }] {}).status = .ok)
    (hdevice : (compileDeviceRatePlan (substepDevice substeps) {}).status = .ok)
    (hdispatch : (compileRateDispatch (substepDispatch substeps) {}).status = .ok) :
    (substepPlan substeps).CompiledFrom (substepDispatch substeps) where
  timeline := ⟨_, _, _, _, _, _, cons_ne_nil _ _, htimeline, rfl⟩
  rates := rfl
  admits := ⟨rfl, substepDevice substeps, {}, rfl, hdevice, rfl⟩
  dispatch := ⟨{}, hdispatch, rfl⟩

/-- The state in which a record of the first group of a step starts, by running the model:
the context, the release, the state the group is executed from and that of the record. -/
def firstGroupStart (plan : ActivePlan) (input : StepInput Unit Unit) (reference : ℕ) :
    Option (StepContext Unit Unit × DueRelease × StepState Unit Unit × StepState Unit Unit) := do
  let (ctx, first) ← (beginStep plan input.machine input.readings input.frame
    (plan.initialState ())).toOption
  let due ← (ctx.dueRelease first 0 0).toOption
  let s := ctx.beginRelease first.tick due false
  let ran ← ((List.range' due.group.firstReferenceIndex
    (reference - due.group.firstReferenceIndex)).foldlM (ctx.runRecord due) s).toOption
  let waited ← ((ctx.plan.dependenciesOf reference).foldlM (ctx.waitForReference due.sequence)
    ran).toOption
  let begun ← (ctx.beginRecord due waited reference).toOption
  let (started, _) ← (ctx.prepareRecord due begun reference).toOption
  return (ctx, due, s, started)

theorem firstGroupStart_eq_some {plan : ActivePlan} {input : StepInput Unit Unit} {reference : ℕ}
    {ctx : StepContext Unit Unit} {due : DueRelease} {s started : StepState Unit Unit}
    (h : firstGroupStart plan input reference = some (ctx, due, s, started))
    (hgroup : reference ∈ groupReferences due.group) :
    ctx.plan = plan ∧ ctx.RecordStarts due s reference started ∧ ∃ first,
      beginStep plan input.machine input.readings input.frame (plan.initialState ()) =
        .ok (ctx, first) ∧
      ctx.dueRelease first 0 0 = .ok due ∧ s = ctx.beginRelease first.tick due false := by
  simp only [firstGroupStart, Option.bind_eq_bind, Option.bind_eq_some_iff] at h
  obtain ⟨⟨ctx', first⟩, hbegin, due', hdue, ran, hran, waited, hwaited, begun, hbegun,
    ⟨started', slot⟩, hprepared, h⟩ := h
  obtain ⟨rfl, rfl, rfl, rfl⟩ : ctx' = ctx ∧ due' = due ∧
      ctx'.beginRelease first.tick due' false = s ∧ started' = started := by simpa using h
  have hsplit : groupReferences due'.group =
      range' due'.group.firstReferenceIndex (reference - due'.group.firstReferenceIndex) ++
        reference :: range' (reference + 1)
          (due'.group.firstReferenceIndex + due'.group.referenceCount - (reference + 1)) := by
    rw [groupReferences, mem_range'_1] at hgroup
    rw [← range'_succ, groupReferences]
    nth_rewrite 2 [← Nat.add_sub_cancel' hgroup.1]
    rw [range'_append_1]
    congr 1
    omega
  have hbegin := eq_ok_of_toOption hbegin
  exact ⟨(beginStep_eq_ok hbegin).plan_eq, ⟨_, _, ran, waited, begun, slot, hsplit,
    eq_ok_of_toOption hran, eq_ok_of_toOption hwaited, eq_ok_of_toOption hbegun,
    eq_ok_of_toOption hprepared⟩, first, hbegin, eq_ok_of_toOption hdue, rfl⟩

/-- With one substep the CPU record starts after the batch before it has completed. -/
theorem prerequisites_completed_single :
    ∃ (ctx : StepContext Unit Unit) (due : DueRelease) (s started : StepState Unit Unit),
      ctx.RecordStarts due s 1 started ∧
      started.tickets 0 = none ∧ ctx.BatchCompleted s started 0 := by
  obtain ⟨⟨ctx, due, s, started⟩, hstart, hvalues⟩ := Option.map_eq_some_iff.mp (by decide +kernel :
    (firstGroupStart (substepPlan 1) (pipelineStep .ok 0) 1).map (fun start =>
      (start.2.1.group ∈ (substepPlan 1).dispatch.groups : Bool) &&
        start.2.1.group.firstReferenceIndex = 0 && start.2.1.group.referenceCount = 2) = some true)
  simp only [Bool.and_eq_true, decide_eq_true_eq] at hvalues
  obtain ⟨⟨hgroup, hfirst⟩, hcount⟩ := hvalues
  have hrefs : groupReferences due.group = [0, 1] := by
    rw [groupReferences, hfirst, hcount]
    rfl
  obtain ⟨hplan, hstarts, -⟩ := firstGroupStart_eq_some hstart (by rw [hrefs]; simp)
  refine ⟨ctx, due, s, started, hstarts, ?_⟩
  exact prerequisites_completed (substepPlan 1) (substepDispatch 1)
    (substepPlan_compiled 1 (by decide +kernel) (by decide +kernel) (by decide +kernel))
    (by decide +kernel) ctx hplan due hgroup s 1 started hstarts
    ⟨PhaseHandle.make 7 0, PhaseHandle.make 7 1⟩ mem_cons_self (by decide +kernel) 0
    (by rw [hrefs]; simp) (by decide) (by decide +kernel) (by decide +kernel)

/-- With two substeps the CPU record starts while the batch of the second device substep is
open: it has been accepted and nobody has waited for it. -/
theorem prerequisite_open :
    (substepPlan 2).CompiledFrom (substepDispatch 2) ∧
      (∃ dependency ∈ (substepDispatch 2).dependencies,
        dependency.dependent = ((substepPlan 2).release 2).phase ∧
        dependency.prerequisite = ((substepPlan 2).release 1).phase) ∧
      ((substepPlan 2).release 1).phaseKind = .device ∧
      ∃ ctx first due s started,
        beginStep (substepPlan 2) (pipelineStep .ok 0).machine (pipelineStep .ok 0).readings
          (pipelineStep .ok 0).frame ((substepPlan 2).initialState ()) = .ok (ctx, first) ∧
        ctx.dueRelease first 0 0 = .ok due ∧ s = ctx.beginRelease first.tick due false ∧
        due.group ∈ (substepPlan 2).dispatch.groups ∧
        1 ∈ StepContext.groupReferences due.group ∧ ctx.RecordStarts due s 2 started ∧
        (started.tickets 1).isSome ∧ ¬ ctx.BatchCompleted s started 1 := by
  refine ⟨substepPlan_compiled 2 (by decide +kernel) (by decide +kernel) (by decide +kernel),
    ⟨_, mem_cons_self, by decide +kernel, by decide +kernel⟩, by decide +kernel, ?_⟩
  obtain ⟨⟨ctx, due, s, started⟩, hstart, hvalues⟩ := Option.map_eq_some_iff.mp (by decide +kernel :
    (firstGroupStart (substepPlan 2) (pipelineStep .ok 0) 2).map (fun start =>
      (start.2.1.group ∈ (substepPlan 2).dispatch.groups : Bool) &&
        start.2.1.group.firstReferenceIndex = 0 && start.2.1.group.referenceCount = 4 &&
        (start.2.2.2.tickets 1).isSome && start.2.2.2.trace.all fun event =>
          match event with
          | .waited reference _ => reference ≠ 1
          | _ => true) = some true)
  simp only [Bool.and_eq_true, decide_eq_true_eq, all_eq_true] at hvalues
  obtain ⟨⟨⟨⟨hgroup, hfirst⟩, hcount⟩, hticket⟩, htrace⟩ := hvalues
  have hrefs : groupReferences due.group = [0, 1, 2, 3] := by
    rw [groupReferences, hfirst, hcount]
    rfl
  obtain ⟨-, hstarts, first, hbegin, hdue, hs⟩ :=
    firstGroupStart_eq_some hstart (by rw [hrefs]; simp)
  refine ⟨ctx, first, due, s, started, hbegin, hdue, hs, hgroup, by rw [hrefs]; simp, hstarts,
    hticket, ?_⟩
  rintro ⟨ticket, u, -, -, -, hlater⟩
  obtain ⟨_, _, _, _, rest, hstate, -⟩ := ctx.finishBatch_frame u 1 ticket
  have hwaited : ActiveEvent.waited 1 ticket ∈ started.trace := by
    refine hlater.subset ?_
    rw [hstate]
    simp
  simpa using htrace _ hwaited

end RtRuntime
