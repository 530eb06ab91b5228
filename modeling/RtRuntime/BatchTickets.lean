import RtRuntime.ActiveStep
import RtRuntime.Interleaving

/-!
# Ownership of device batches

A device record that is executed leaves a ticket for the batch it submitted. The batch is
owned until it has been waited for and its slot released. This file follows the tickets of
a group through all its early returns: a group that returns normally has settled every
batch, and a group that fails either stops the runtime for good or, where the failure is
that of a CPU record, has settled them before the failing record ran.
-/

namespace RtRuntime

open Function Ensures List

variable {ω ε : Type}

/-! ## The life of a batch -/

/-- The event is about a batch of the record. -/
def ActiveEvent.concerns (reference : ℕ) : ActiveEvent → Bool
  | .ran _ _ => false
  | .accepted r _ => r = reference
  | .waited r _ => r = reference
  | .released r _ => r = reference

/-- The events about batches of the record. -/
def batchEvents (reference : ℕ) (trace : List ActiveEvent) : List ActiveEvent :=
  trace.filter (·.concerns reference)

/-- Batches one after the other, each accepted, waited for and released. -/
inductive Handled (reference : ℕ) : List ActiveEvent → Prop
  | nil : Handled reference []
  | batch {events : List ActiveEvent} (ticket : DeviceRateTicket)
      (earlier : Handled reference events) :
      Handled reference (events ++
        [.accepted reference ticket, .waited reference ticket, .released reference ticket])

/-- All batches of the record but the last are handled; the last may be open. -/
def AtMostOneOpen (reference : ℕ) (events : List ActiveEvent) : Prop :=
  ∃ done last, events = done ++ last ∧ Handled reference done ∧
    (last = [] ∨ ∃ ticket, last = [.accepted reference ticket] ∨
      last = [.accepted reference ticket, .waited reference ticket])

variable {reference : ℕ}

attribute [simp] ActiveEvent.concerns

theorem Handled.atMostOneOpen {events : List ActiveEvent} (h : Handled reference events) :
    AtMostOneOpen reference events :=
  ⟨events, [], by simp, h, .inl rfl⟩

@[simp] theorem batchEvents_append (reference : ℕ) (l l' : List ActiveEvent) :
    batchEvents reference (l ++ l') = batchEvents reference l ++ batchEvents reference l' :=
  filter_append ..

/-- Events about one record do not show in another's. -/
theorem batchEvents_append_of_ne {r : ℕ} (hne : r ≠ reference) (l : List ActiveEvent)
    {l' : List ActiveEvent} (hl : ∀ e ∈ l', e.concerns reference = true ∨ ∃ q k, e = .ran q k) :
    batchEvents r (l ++ l') = batchEvents r l := by
  have hnil : batchEvents r l' = [] := by
    refine filter_eq_nil_iff.mpr fun e he => ?_
    rcases hl e he with h | ⟨q, k, rfl⟩
    · cases e <;> simp_all [Ne.symm hne]
    · simp
  rw [batchEvents_append, hnil, append_nil]

/-- No batch is open and no ticket is left. -/
def ActiveState.Settled (state : ActiveState ω ε) : Prop :=
  ∀ r, state.tickets r = none ∧ Handled r (batchEvents r state.trace)

/-- Each batch of each record is handled before the next one is accepted, and as long as
the runtime can step again none is open and no ticket is left. -/
structure BatchesOwned (state : ActiveState ω ε) : Prop where
  inOrder : ∀ r, AtMostOneOpen r (batchEvents r state.trace)
  settled : state.fault = none → state.Settled

/-! ## Tickets and traces -/

/-- Tickets are held for exactly the batches that are open. -/
structure Tracked (s : StepState ω ε) : Prop where
  idle : ∀ r, s.tickets r = none → Handled r (batchEvents r s.trace)
  pending : ∀ r t, s.tickets r = some t →
    ∃ done, Handled r done ∧ batchEvents r s.trace = done ++ [.accepted r t]

namespace Tracked

variable {s s' : StepState ω ε}

theorem congr (h : Tracked s) (htickets : s'.tickets = s.tickets) (htrace : s'.trace = s.trace) :
    Tracked s' :=
  ⟨by rw [htickets, htrace]; exact h.idle, by rw [htickets, htrace]; exact h.pending⟩

theorem inOrder (h : Tracked s) (r : ℕ) : AtMostOneOpen r (batchEvents r s.trace) := by
  cases ht : s.tickets r with
  | none => exact (h.idle r ht).atMostOneOpen
  | some t =>
    obtain ⟨done, hdone, hevents⟩ := h.pending r t ht
    exact ⟨done, _, hevents, hdone, .inr ⟨t, .inl rfl⟩⟩

/-- A record starts without a batch. -/
theorem ran {sequence : ℕ} (h : Tracked s) (htickets : s'.tickets = s.tickets)
    (htrace : s'.trace = s.trace ++ [.ran reference sequence]) : Tracked s' := by
  have hevents : ∀ r, batchEvents r s'.trace = batchEvents r s.trace := by
    intro r
    rw [htrace, batchEvents_append]
    simp [batchEvents]
  refine ⟨fun r hr => ?_, fun r t hr => ?_⟩
  · rw [hevents]
    exact h.idle r (by rwa [← htickets])
  · rw [hevents]
    exact h.pending r t (by rwa [← htickets])

/-- A batch is accepted for a record that has none open. -/
theorem accept {sequence : ℕ} {ticket : DeviceRateTicket} (h : Tracked s)
    (hnone : s.tickets reference = none)
    (htickets : s'.tickets = update s.tickets reference (some ticket))
    (htrace : s'.trace = s.trace ++ [.ran reference sequence, .accepted reference ticket]) :
    Tracked s' := by
  have hother : ∀ r, r ≠ reference → batchEvents r s'.trace = batchEvents r s.trace := by
    intro r hr
    rw [htrace, batchEvents_append_of_ne hr _ (by simp)]
  refine ⟨fun r hr => ?_, fun r t hr => ?_⟩
  · rcases eq_or_ne r reference with rfl | hne
    · simp [htickets] at hr
    · rw [hother r hne]
      exact h.idle r (by simpa [htickets, hne] using hr)
  · rcases eq_or_ne r reference with rfl | hne
    · obtain rfl : ticket = t := by simpa [htickets] using hr
      exact ⟨_, h.idle r hnone, by
        rw [htrace, batchEvents_append]
        simp [batchEvents]⟩
    · rw [hother r hne]
      exact h.pending r t (by simpa [htickets, hne] using hr)

/-- The open batch of a record is handled. -/
theorem settle {ticket : DeviceRateTicket} (h : Tracked s)
    (hsome : s.tickets reference = some ticket)
    (htickets : s'.tickets = update s.tickets reference none)
    (htrace : s'.trace = s.trace ++ [.waited reference ticket, .released reference ticket]) :
    Tracked s' := by
  have hother : ∀ r, r ≠ reference → batchEvents r s'.trace = batchEvents r s.trace := by
    intro r hr
    rw [htrace, batchEvents_append_of_ne hr _ (by simp)]
  refine ⟨fun r hr => ?_, fun r t hr => ?_⟩
  · rcases eq_or_ne r reference with rfl | hne
    · obtain ⟨done, hdone, hevents⟩ := h.pending r ticket hsome
      have : batchEvents r s'.trace =
          done ++ [.accepted r ticket, .waited r ticket, .released r ticket] := by
        rw [htrace, batchEvents_append, hevents]
        simp [batchEvents]
      rw [this]
      exact .batch ticket hdone
    · rw [hother r hne]
      exact h.idle r (by simpa [htickets, hne] using hr)
  · rcases eq_or_ne r reference with rfl | hne
    · simp [htickets] at hr
    · rw [hother r hne]
      exact h.pending r t (by simpa [htickets, hne] using hr)

/-- A batch that was only waited for, or accepted by a failing record, is the one open. -/
theorem inOrder_append (h : Tracked s) (reference : ℕ) (events : List ActiveEvent)
    (hevents : ∀ e ∈ events, e.concerns reference = true ∨ ∃ q k, e = .ran q k)
    (hlast : AtMostOneOpen reference (batchEvents reference (s.trace ++ events)))
    (htrace : s'.trace = s.trace ++ events) (r : ℕ) :
    AtMostOneOpen r (batchEvents r s'.trace) := by
  rw [htrace]
  rcases eq_or_ne r reference with rfl | hne
  · exact hlast
  · rw [batchEvents_append_of_ne hne _ hevents]
    exact h.inOrder r

end Tracked

/-- Tickets, traces and faults are the same. -/
structure SameBatches (s t : StepState ω ε) : Prop where
  tickets : t.tickets = s.tickets
  trace : t.trace = s.trace
  fault : t.fault = s.fault

variable {s t : StepState ω ε}

theorem SameBatches.trans {u : StepState ω ε} (h : SameBatches s t) (h' : SameBatches t u) :
    SameBatches s u :=
  ⟨h'.tickets.trans h.tickets, h'.trace.trans h.trace, h'.fault.trans h.fault⟩

theorem SameBatches.tracked (h : SameBatches s t) (hs : Tracked s) :
    Tracked t :=
  hs.congr h.tickets h.trace

/-! ## Waiting -/

/-- Only a terminal slot reports success, and it is owned. -/
theorem RateBatchEnd.owned_of_ok {batch : RateBatchEnd} (h : batch.completion.status = .ok) :
    batch.completion.terminalSlotOwned = true := by
  cases batch with
  | terminal status domain timestamp => rfl
  | quarantined status failed => exact absurd h failed
  | foreign => cases h

namespace StepContext

variable (ctx : StepContext ω ε) (s : StepState ω ε)

/-- Only the position in the transcript can change. -/
theorem normalizeCompletion_frame (ticket : DeviceRateTicket) (completion : DeviceRateCompletion) :
    ∃ replay, (normalizeCompletion s ticket completion).2 = { s with replay := replay } := by
  unfold normalizeCompletion
  split
  · exact ⟨s.replay, rfl⟩
  · split
    · split
      · exact ⟨s.replay, rfl⟩
      · exact ⟨_, rfl⟩
    · exact ⟨_, rfl⟩

variable {ticket : DeviceRateTicket}

/-- The status and the ownership of the slot are those of the wait. -/
theorem normalizeCompletion_value {completion completion' : DeviceRateCompletion}
    (h : (normalizeCompletion s ticket completion).1 = some completion') :
    completion'.status = completion.status ∧
      completion'.terminalSlotOwned = completion.terminalSlotOwned := by
  unfold normalizeCompletion at h
  split at h
  · cases h
    exact ⟨rfl, rfl⟩
  · split at h
    · split at h
      · cases h
        exact ⟨rfl, rfl⟩
      · cases h
    · cases h

theorem captureOutputs_frame (ticket : DeviceRateTicket) (completion : DeviceRateCompletion)
    (status : Status) :
    ∃ world held, (ctx.captureOutputs s ticket completion status).2 =
      { s with world := world, held := held } := by
  unfold captureOutputs
  split
  · exact ⟨_, _, rfl⟩
  · exact ⟨s.world, s.held, rfl⟩

theorem captureOutputs_ok {completion : DeviceRateCompletion} {status : Status}
    (h : (ctx.captureOutputs s ticket completion status).1 = .ok) :
    status = .ok := by
  unfold captureOutputs at h
  split at h
  · assumption
  · exact h

/-- The slot is released exactly if it is owned. -/
theorem releaseOwned_frame (reference : ℕ) (ticket : DeviceRateTicket) (owned : Bool)
    (status : Status) :
    ∃ world, (ctx.releaseOwned s reference ticket owned status).2 = { s with
      world := world
      trace := s.trace ++ if owned then [.released reference ticket] else [] } := by
  cases owned with
  | true => exact ⟨_, rfl⟩
  | false => exact ⟨s.world, by simp [releaseOwned]⟩

theorem releaseOwned_ok {owned : Bool} {status : Status}
    (h : (ctx.releaseOwned s reference ticket owned status).1 = .ok) :
    status = .ok := by
  cases owned with
  | true =>
    by_contra hne
    simp [releaseOwned, hne] at h
  | false => simpa [releaseOwned] using h

variable [DecidableEq ε] (reference : ℕ) (ticket : DeviceRateTicket)

/-- A wait clears the ticket. The batch is released unless its slot stays with the device
manager, which then reports a failure. -/
theorem finishBatch_frame :
    ∃ world held mixedLog replay rest, (ctx.finishBatch s reference ticket).2 = { s with
        world := world
        held := held
        mixedLog := mixedLog
        replay := replay
        trace := s.trace ++ .waited reference ticket :: rest
        tickets := update s.tickets reference none } ∧
      (rest = [.released reference ticket] ∨
        rest = [] ∧ (ctx.finishBatch s reference ticket).1 ≠ .ok) := by
  set batch := ctx.machine.waitRateBatch s.world ticket with hbatch
  set waited : StepState ω ε := { s with
    world := batch.2
    trace := s.trace ++ [.waited reference ticket] } with hwaited
  set normalized := normalizeCompletion waited ticket batch.1.completion with hnormalized
  set completion := normalized.1.getD batch.1.completion with hcompletion
  set captured := ctx.captureOutputs normalized.2 ticket completion
    (if normalized.1.isSome then completion.status else .incompatibleArtifact) with hcaptured
  set released := ctx.releaseOwned captured.2 reference ticket completion.terminalSlotOwned
    captured.1 with hreleased
  have hfinish : ctx.finishBatch s reference ticket =
      (released.1, { ctx.reportCompletion released.2 ticket completion released.1 with
        tickets := update (ctx.reportCompletion released.2 ticket completion
          released.1).tickets reference none }) := rfl
  obtain ⟨replay, hreplay⟩ := normalizeCompletion_frame waited ticket batch.1.completion
  obtain ⟨world, held, hheld⟩ := ctx.captureOutputs_frame normalized.2 ticket completion
    (if normalized.1.isSome then completion.status else .incompatibleArtifact)
  obtain ⟨world', hworld⟩ := ctx.releaseOwned_frame captured.2 reference ticket
    completion.terminalSlotOwned captured.1
  have howned : released.1 = .ok → completion.terminalSlotOwned = true := by
    intro hok
    have hstatus := ctx.captureOutputs_ok _ (ctx.releaseOwned_ok _ hok)
    cases hvalue : normalized.1 with
    | none => simp [hvalue] at hstatus
    | some completion' =>
      have hsame := normalizeCompletion_value waited hvalue
      simp only [hcompletion, hvalue, Option.getD_some, Option.isSome_some, if_true] at hstatus ⊢
      rw [hsame.2]
      exact RateBatchEnd.owned_of_ok (hsame.1 ▸ hstatus)
  set rest : List ActiveEvent :=
    if completion.terminalSlotOwned then [.released reference ticket] else [] with hrest
  have hstate : released.2 = { s with
      world := world'
      held := held
      replay := replay
      trace := s.trace ++ .waited reference ticket :: rest } := by
    rw [hreleased, hworld, hcaptured, hheld, hnormalized, hreplay]
    simp [hwaited, hrest]
  set reported := ctx.reportCompletion released.2 ticket completion released.1 with hreported
  refine ⟨world', held, reported.mixedLog, reported.replay, rest, ?_, ?_⟩
  · rw [hfinish, hreported]
    simp only [reportCompletion, StepState.emitMixed, hstate]
  · cases howner : completion.terminalSlotOwned with
    | true => exact .inl (by rw [hrest, if_pos howner])
    | false =>
      refine .inr ⟨by simp [hrest, howner], fun hok => ?_⟩
      rw [hfinish] at hok
      rw [howned hok] at howner
      cases howner

/-- What a wait does to the tickets: the one waited for is cleared, and a failure is the
failure of the record that held it. -/
theorem waitForReference_tracked {sequence reference : ℕ} {s : StepState ω ε} (h : Tracked s) :
    Ensures (ctx.waitForReference sequence s reference)
      (fun t => Tracked t ∧ t.fault = s.fault ∧
        t.tickets = update s.tickets reference none)
      (fun stop => (∀ r, AtMostOneOpen r (batchEvents r stop.2.trace)) ∧
        (∃ ticket, s.tickets reference = some ticket) ∧
        stop.2.failedPhase = some (ctx.plan.release reference).phase.index) := by
  unfold waitForReference
  cases hticket : s.tickets reference with
  | none => exact ⟨h, rfl, by rw [← hticket, update_eq_self]⟩
  | some ticket =>
    obtain ⟨world, held, mixedLog, replay, rest, hstate, hrest⟩ :=
      ctx.finishBatch_frame s reference ticket
    by_cases hok : (ctx.finishBatch s reference ticket).1 = .ok
    · simp only [hok, if_true]
      obtain rfl : rest = [.released reference ticket] :=
        hrest.resolve_right fun hopen => hopen.2 hok
      exact ⟨h.settle hticket (by rw [hstate]) (by rw [hstate]), by rw [hstate], by rw [hstate]⟩
    · simp only [hok, if_false]
      refine ⟨h.inOrder_append reference (.waited reference ticket :: rest) ?_ ?_ ?_, ⟨ticket, rfl⟩,
        rfl⟩
      · intro e he
        rcases hrest with rfl | ⟨rfl, -⟩ <;> simp at he <;>
          rcases he with rfl | rfl <;> simp
      · obtain ⟨done, hdone, hevents⟩ := h.pending reference ticket hticket
        rw [batchEvents_append, hevents]
        rcases hrest with rfl | ⟨rfl, -⟩
        · simpa [batchEvents] using
            (Handled.batch ticket hdone).atMostOneOpen
        · exact ⟨done, [.accepted reference ticket, .waited reference ticket],
            by simp [batchEvents], hdone, .inr ⟨ticket, .inr rfl⟩⟩
      · simp only [StepState.failRecord, StepState.recordActiveFailure, hstate]

end StepContext

/-! ## Groups -/

open StepContext

/-- The record runs behind a device record of its group that no record up to it waits for. -/
def ActivePlan.Exposed (plan : ActivePlan) (group : RateReleaseGroup) (reference : ℕ) : Prop :=
  ∃ r ∈ groupReferences group, r < reference ∧ (plan.release r).phaseKind = .device ∧
    ∀ q, r < q → q ≤ reference → r ∉ plan.dependenciesOf q

/-- The callback succeeds and leaves no host channel of its phase without a frame. -/
def ActiveMachine.Completes (machine : ActiveMachine ω ε) (plan : ActivePlan) (world : ω)
    (context : ReleaseContext) : Prop :=
  (machine.runSelected world context).value.status = .ok ∧
    ∀ channel ∈ plan.hostChannels (plan.release context.reference).phase.index,
      (machine.runSelected world context).value.published channel = true ∨
        ∀ world, (machine.substituteSafe world channel).value = true

/-- No CPU record fails behind a device record of its group that nobody has waited for. -/
def ActivePlan.CallbacksSafe (plan : ActivePlan) (machine : ActiveMachine ω ε) : Prop :=
  ∀ group ∈ plan.dispatch.groups, ∀ reference ∈ groupReferences group,
    (plan.release reference).phaseKind ≠ .device → plan.Exposed group reference →
      ∀ world context, context.reference = reference → machine.Completes plan world context

namespace StepContext

variable [DecidableEq ε] (ctx : StepContext ω ε) (due : DueRelease)

/-- While a group runs, only its device records that have run and that nobody has waited for
hold a ticket. -/
structure Running (done : List ℕ) (s : StepState ω ε) : Prop where
  tracked : Tracked s
  fault : s.fault = none
  owner : ∀ r t, s.tickets r = some t →
    r ∈ done ∧ (ctx.plan.release r).phaseKind = .device ∧
      ∀ q ∈ done, r < q → r ∉ ctx.plan.dependenciesOf q

/-- A failed group has at most one open batch per record, and none if the runtime is not
stopped for good. -/
structure GroupStopped (stop : Status × StepState ω ε) : Prop where
  inOrder : ∀ r, AtMostOneOpen r (batchEvents r stop.2.trace)
  settled : stop.2.fault.isSome ∨ ctx.terminalDeviceFailure stop.2.failedPhase due = true ∨
    (Tracked stop.2 ∧ ∀ r, stop.2.tickets r = none)

/-- The callback of a CPU record completes if a device record before it may have no waiter. -/
def SafeRecord (reference : ℕ) : Prop :=
  ∀ world context, ctx.plan.Exposed due.group reference →
    (ctx.plan.release reference).phaseKind ≠ .device →
    context.reference = reference → ctx.machine.Completes ctx.plan world context

variable {ctx due}

omit [DecidableEq ε] in
/-- The failure of a device record of the group is a terminal one. -/
theorem terminalDeviceFailure_of_failedPhase {failedPhase : Option ℕ}
    (hmem : reference ∈ groupReferences due.group)
    (hdevice : (ctx.plan.release reference).phaseKind = .device)
    (hphase : failedPhase = some (ctx.plan.release reference).phase.index) :
    ctx.terminalDeviceFailure failedPhase due = true := by
  refine any_eq_true.mpr ⟨reference, hmem, ?_⟩
  simp [hphase, hdevice]

section Record

variable {done rest : List ℕ}

omit [DecidableEq ε] in
theorem Running.congr (h : Running ctx done s) (hsame : SameBatches s t) :
    Running ctx done t :=
  ⟨hsame.tracked h.tracked, hsame.fault.trans h.fault, by rw [hsame.tickets]; exact h.owner⟩

/-! The functions around a callback leave tickets and trace alone. -/

section Around

variable {Q : Status × StepState ω ε → Prop}

omit [DecidableEq ε] in
theorem beginRecord_ensures
    (he : ∀ status, Q (status, s.setActiveFailure (ctx.plan.release reference) due.sequence)) :
    Ensures (ctx.beginRecord due s reference) (SameBatches s) Q := by
  simp only [beginRecord]
  split
  · exact he _
  · exact ⟨rfl, rfl, rfl⟩

theorem prepareRecord_ensures (he : (ctx.plan.release reference).phaseKind = .device →
      ∀ status t, SameBatches s t →
        Q (status, t.failRecord (ctx.plan.release reference) due.sequence)) :
    Ensures (ctx.prepareRecord due s reference) (fun t => SameBatches s t.1) Q := by
  simp only [prepareRecord]
  split
  next hdevice =>
    split
    · exact he hdevice _ _ ⟨rfl, rfl, rfl⟩
    · split
      · exact ⟨rfl, rfl, rfl⟩
      · exact he hdevice _ _ ⟨rfl, rfl, rfl⟩
  next => exact ⟨rfl, rfl, rfl⟩

theorem publications_ensures {outcome : RunOutcome} {channels : List ℕ}
    (he : ∀ status t, SameBatches s t → (∃ channel ∈ channels, ¬ outcome.published channel ∧
        ∃ world, ¬ (ctx.machine.substituteSafe world channel).value) →
      Q (status, t.failRecord (ctx.plan.release reference) due.sequence)) :
    Ensures (channels.foldlM (ctx.requirePublication due reference outcome) s) (SameBatches s)
      Q := by
  refine foldlM_state ⟨rfl, rfl, rfl⟩ fun t hsame channel hchannel => ?_
  simp only [requirePublication]
  split
  · exact hsame
  next hunpublished =>
    split
    · exact hsame.trans ⟨rfl, rfl, rfl⟩
    next hsubstitute =>
      exact he _ _ (hsame.trans ⟨rfl, rfl, rfl⟩)
        ⟨channel, hchannel, hunpublished, t.world, hsubstitute⟩

theorem commits_ensures {channels : List ℕ} (he : ∀ status t, SameBatches s t →
      Q (status, t.setActiveFailure (ctx.plan.release reference) due.sequence)) :
    Ensures (channels.foldlM (ctx.commitChannel due reference) s) (SameBatches s) Q := by
  refine foldlM_state ⟨rfl, rfl, rfl⟩ fun t hsame channel _ => ?_
  simp only [commitChannel]
  split
  · exact hsame.trans ⟨rfl, rfl, rfl⟩
  · exact he _ _ (hsame.trans ⟨rfl, rfl, rfl⟩)

end Around

/-- The trace after a callback. -/
theorem returnFrom_trace (reply : Reply ω ε RunOutcome) :
    (ctx.returnFrom due s reference reply).trace = s.trace ++ .ran reference due.sequence ::
      ((ctx.acceptedTicket due reference reply.value).map (.accepted reference)).toList := rfl

/-- The records before the current one are exactly those with a smaller index. -/
theorem mem_done_iff {group : RateReleaseGroup}
    (h : groupReferences group = done ++ reference :: rest) (r : ℕ) :
    r ∈ done ↔ r ∈ groupReferences group ∧ r < reference := by
  have hsorted : (done ++ reference :: rest).Pairwise (· < ·) := by
    rw [← h]
    exact pairwise_lt_range' ..
  rw [pairwise_append] at hsorted
  obtain ⟨-, hrest, hlt⟩ := hsorted
  rw [h]
  refine ⟨fun hr => ⟨mem_append_left _ hr, hlt r hr _ mem_cons_self⟩, ?_⟩
  rintro ⟨hr, hlt'⟩
  rcases mem_append.mp hr with hr | hr
  · exact hr
  · rcases mem_cons.mp hr with rfl | hr
    · omega
    · have := (pairwise_cons.mp hrest).1 r hr
      omega

/-- The waits for a list of records leave the tickets of the others. -/
theorem Running.waits (h : Running ctx done s) (hdone : ∀ r ∈ done, r ∈ groupReferences due.group)
    (references : List ℕ) :
    Ensures (references.foldlM (ctx.waitForReference due.sequence) s)
      (fun t => Tracked t ∧ t.fault = none ∧
        ∀ r u, t.tickets r = some u → s.tickets r = some u ∧ r ∉ references)
      (GroupStopped ctx due) := by
  refine foldlM (I := fun waited t => Tracked t ∧ t.fault = none ∧
      ∀ r u, t.tickets r = some u → s.tickets r = some u ∧ r ∉ waited)
    ⟨h.tracked, h.fault, fun r u hr => ⟨hr, by simp⟩⟩ ?_
  rintro waited dependency _ t - ⟨htracked, hfault, hold⟩
  refine (ctx.waitForReference_tracked htracked).mono ?_ ?_
  · rintro t' ⟨htracked', hfault', htickets⟩
    refine ⟨htracked', hfault'.trans hfault, fun r u hr => ?_⟩
    rw [htickets] at hr
    by_cases hne : r = dependency
    · simp [hne] at hr
    · rw [update_of_ne hne] at hr
      obtain ⟨hsome, hwaited⟩ := hold r u hr
      exact ⟨hsome, by simp [hwaited, hne]⟩
  · rintro stop ⟨hinOrder, ⟨u, hu⟩, hphase⟩
    obtain ⟨hmem, hdevice, -⟩ := h.owner _ _ (hold _ _ hu).1
    exact ⟨hinOrder,
      .inr (.inl (terminalDeviceFailure_of_failedPhase (hdone _ hmem) hdevice hphase))⟩

variable (hrefs : groupReferences due.group = done ++ reference :: rest)

include hrefs

/-- The waits of a record for the device records it depends on. -/
theorem Running.dependencies (h : Running ctx done s) :
    Ensures ((ctx.plan.dependenciesOf reference).foldlM (ctx.waitForReference due.sequence) s)
      (fun t => Running ctx (done ++ [reference]) t ∧ t.tickets reference = none)
      (GroupStopped ctx due) := by
  refine (h.waits (fun r hr => ((mem_done_iff hrefs r).mp hr).1) _).mono ?_ fun _ hstop => hstop
  rintro t ⟨htracked, hfault, hold⟩
  refine ⟨⟨htracked, hfault, fun r u hr => ?_⟩, ?_⟩
  · obtain ⟨hsome, hnot⟩ := hold r u hr
    obtain ⟨hmem, hdevice, hdeps⟩ := h.owner r u hsome
    exact ⟨mem_append_left _ hmem, hdevice, forall_mem_concat.mpr ⟨hdeps, fun _ => hnot⟩⟩
  · -- the record itself has not run yet
    cases hticket : t.tickets reference with
    | none => rfl
    | some u =>
      have := ((mem_done_iff hrefs reference).mp (h.owner _ _ (hold _ _ hticket).1).1).2
      omega

variable (hsafe : ctx.SafeRecord due reference)

include hsafe

omit [DecidableEq ε] in
/-- A CPU record that fails has no open batch before it. -/
theorem Running.idle_of_fails (h : Running ctx (done ++ [reference]) s)
    (hcpu : (ctx.plan.release reference).phaseKind ≠ .device) (world : ω) (context : ReleaseContext)
    (hcontext : context.reference = reference)
    (hfails : ¬ ctx.machine.Completes ctx.plan world context) (r : ℕ) : s.tickets r = none := by
  cases hticket : s.tickets r with
  | none => rfl
  | some t =>
    obtain ⟨hmem, hdevice, hdeps⟩ := h.owner r t hticket
    have hne : r ≠ reference := by
      rintro rfl
      exact hcpu hdevice
    have hdone : r ∈ done := by
      rcases mem_append.mp hmem with hr | hr
      · exact hr
      · exact absurd (mem_singleton.mp hr) hne
    obtain ⟨hgroup, hlt⟩ := (mem_done_iff hrefs r).mp hdone
    refine absurd
      (hsafe world context ⟨r, hgroup, hlt, hdevice, fun q hq hle => ?_⟩ hcpu hcontext) hfails
    by_cases hqr : q ∈ groupReferences due.group
    · refine hdeps q ?_ hq
      rcases Nat.lt_or_eq_of_le hle with hlt' | rfl
      · exact mem_append_left _ ((mem_done_iff hrefs q).mpr ⟨hqr, hlt'⟩)
      · simp
    · -- the references of a group are consecutive
      exfalso
      have hlast : reference ∈ groupReferences due.group := by simp [hrefs]
      simp only [groupReferences, mem_range'_1] at hgroup hlast hqr
      omega

/-- The callback of a record: a device record leaves a ticket, and a CPU record that fails
leaves no batch open. -/
theorem Running.call {payloadSlot : ℕ} (h : Running ctx (done ++ [reference]) s)
    (hnone : s.tickets reference = none) :
    Ensures (ctx.callRecord due s reference payloadSlot)
      (fun t => Running ctx (done ++ [reference]) t.1 ∧
        ∃ world context, context.reference = reference ∧
          t.2 = (ctx.machine.runSelected world context).value)
      (GroupStopped ctx due) := by
  have hmem : reference ∈ groupReferences due.group := by simp [hrefs]
  set reply := ctx.machine.runSelected s.world (ctx.releaseContext due s reference payloadSlot)
    with hreply
  by_cases hdevice : (ctx.plan.release reference).phaseKind = .device
  · -- every failure of a device record is terminal
    have hterminal : ctx.terminalDeviceFailure
        (some (ctx.plan.release reference).phase.index) due = true :=
      terminalDeviceFailure_of_failedPhase hmem hdevice rfl
    have hinOrder : ∀ r, AtMostOneOpen r
        (batchEvents r (ctx.returnFrom due s reference reply).trace) := by
      refine h.tracked.inOrder_append reference _ ?_ ?_ (returnFrom_trace reply)
      · cases ctx.acceptedTicket due reference reply.value <;> simp
      · rw [batchEvents_append]
        refine ⟨_, _, rfl, h.tracked.idle reference hnone, ?_⟩
        cases ctx.acceptedTicket due reference reply.value <;>
          simp [batchEvents]
    simp only [callRecord, ← hreply, hdevice, if_true]
    split
    · exact ⟨hinOrder, .inr (.inl hterminal)⟩
    · split
      · exact ⟨hinOrder, .inr (.inl hterminal)⟩
      next ticket hticket =>
        have htrace' : (ctx.returnFrom due s reference reply).trace =
            s.trace ++ [.ran reference due.sequence, .accepted reference ticket] := by
          rw [returnFrom_trace, hticket]
          rfl
        refine ⟨⟨h.tracked.accept hnone rfl htrace', h.fault, ?_⟩, s.world,
          ctx.releaseContext due s reference payloadSlot, rfl, rfl⟩
        intro r u hr
        by_cases hne : r = reference
        · subst hne
          refine ⟨by simp, hdevice, forall_mem_concat.mpr ⟨fun q hq hlt => ?_, by omega⟩⟩
          have := ((mem_done_iff hrefs q).mp hq).2
          omega
        · change update s.tickets reference (some ticket) r = some u at hr
          rw [update_of_ne hne] at hr
          exact h.owner r u hr
  · have htrace : (ctx.returnFrom due s reference reply).trace =
        s.trace ++ [.ran reference due.sequence] := by
      simp [returnFrom_trace, acceptedTicket, hdevice]
    have hran : Tracked (ctx.returnFrom due s reference reply) := h.tracked.ran rfl htrace
    have hcall : ctx.callRecord due s reference payloadSlot =
        if reply.value.status ≠ .ok then
          .error (reply.value.status, (ctx.returnFrom due s reference reply).failRecord
            (ctx.plan.release reference) due.sequence)
        else .ok (ctx.returnFrom due s reference reply, reply.value) := by
      simp only [callRecord, ← hreply, hdevice, if_false]
    rw [hcall]
    split
    next hstatus =>
      have hidle := h.idle_of_fails hrefs hsafe hdevice
        s.world (ctx.releaseContext due s reference payloadSlot) rfl
        fun hcompletes => hstatus hcompletes.1
      exact ⟨hran.inOrder, .inr (.inr ⟨hran.congr rfl rfl, hidle⟩)⟩
    next =>
      exact ⟨⟨hran, h.fault, h.owner⟩, s.world, ctx.releaseContext due s reference payloadSlot, rfl,
        rfl⟩

/-- The check that every host channel was published. -/
theorem Running.publications {outcome : RunOutcome} (h : Running ctx (done ++ [reference]) s)
    (houtcome : ∃ world context, context.reference = reference ∧
      outcome = (ctx.machine.runSelected world context).value) :
    Ensures ((ctx.plan.hostChannels (ctx.plan.release reference).phase.index).foldlM
      (ctx.requirePublication due reference outcome) s) (SameBatches s) (GroupStopped ctx due) := by
  refine publications_ensures ?_
  rintro - t hsame ⟨channel, hchannel, hunpublished, _, hsubstitute⟩
  have hrunning := h.congr hsame
  refine ⟨hrunning.tracked.inOrder, .inr ?_⟩
  by_cases hdevice : (ctx.plan.release reference).phaseKind = .device
  · exact .inl (terminalDeviceFailure_of_failedPhase (by simp [hrefs]) hdevice rfl)
  · obtain ⟨world, context, hcontext, rfl⟩ := houtcome
    have hidle := hrunning.idle_of_fails hrefs hsafe hdevice world context hcontext
    refine .inr ⟨hrunning.tracked.congr rfl rfl, hidle fun hcompletes => ?_⟩
    rcases hcompletes.2 channel (hcontext ▸ hchannel) with hpublished | hall
    · exact hunpublished hpublished
    · exact hsubstitute (hall _)

/-- One record of a group. -/
theorem Running.record (h : Running ctx done s) :
    Ensures (ctx.runRecord due s reference) (Running ctx (done ++ [reference]))
      (GroupStopped ctx due) := by
  have hmem : reference ∈ groupReferences due.group := by simp [hrefs]
  refine (h.dependencies hrefs).bind ?_
  rintro s₁ ⟨h₁, hnone⟩
  refine (beginRecord_ensures fun _ => ⟨h₁.tracked.inOrder, .inl rfl⟩).bind fun s₂ hsame₂ => ?_
  refine (prepareRecord_ensures fun hdevice _ t hsame => ⟨((h₁.congr hsame₂).congr
    hsame).tracked.inOrder, .inr (.inl (terminalDeviceFailure_of_failedPhase hmem hdevice
      rfl))⟩).bind fun ⟨s₃, payloadSlot⟩ hsame₃ => ?_
  have h₃ : Running ctx (done ++ [reference]) s₃ := (h₁.congr hsame₂).congr hsame₃
  have hnone₃ : s₃.tickets reference = none := by
    rw [hsame₃.tickets, hsame₂.tickets, hnone]
  refine (h₃.call hrefs hsafe hnone₃).bind ?_
  rintro ⟨s₄, outcome⟩ ⟨h₄, houtcome⟩
  refine (h₄.publications hrefs hsafe houtcome).bind fun s₅ hsame₅ => ?_
  have h₅ := h₄.congr hsame₅
  exact (commits_ensures fun _ t hsame => ⟨(h₅.congr hsame).tracked.inOrder, .inl rfl⟩).mono
    (fun _ hsame₆ => h₅.congr hsame₆) fun _ hstop => hstop

end Record

/-- A group that returns normally has settled its batches. -/
theorem executeActiveGroup_tickets (htracked : Tracked s) (hidle : ∀ r, s.tickets r = none)
    (hfault : s.fault = none) (hgroup : due.group ∈ ctx.plan.dispatch.groups ∨ due.group = {})
    (hsafe : ctx.plan.CallbacksSafe ctx.machine) :
    Ensures (ctx.executeActiveGroup due s)
      (fun t => Tracked t ∧ (∀ r, t.tickets r = none) ∧ t.fault = none)
      (GroupStopped ctx due) := by
  have hsafe' : ∀ reference ∈ groupReferences due.group, ctx.SafeRecord due reference := by
    intro reference hmem world context hexposed hcpu hcontext
    rcases hgroup with hgroup | hgroup
    · exact hsafe _ hgroup reference hmem hcpu hexposed world context hcontext
    · simp [hgroup, groupReferences] at hmem
  have hruns : Ensures ((groupReferences due.group).foldlM (ctx.runRecord due) s)
      (Running ctx (groupReferences due.group)) (GroupStopped ctx due) := by
    refine foldlM (I := Running ctx)
      ⟨htracked, hfault, fun r t hr => by rw [hidle r] at hr; cases hr⟩ ?_
    intro done reference rest t hrefs ht
    exact ht.record hrefs (hsafe' reference (by simp [hrefs]))
  refine hruns.bind fun t ht => ?_
  -- the waits at the end reach every record that can still hold a ticket
  refine (ht.waits (fun _ => id) _).mono ?_ fun _ hstop => hstop
  rintro u ⟨hu, hufault, hold⟩
  refine ⟨hu, fun r => ?_, hufault⟩
  cases hticket : u.tickets r with
  | none => rfl
  | some v =>
    obtain ⟨hsome, hnot⟩ := hold r v hticket
    exact absurd (ht.owner r v hsome).1 hnot

/-! ## Steps -/

/-- Between groups no batch is open. -/
structure Quiescent (s : StepState ω ε) : Prop where
  tracked : Tracked s
  idle : ∀ r, s.tickets r = none
  fault : s.fault = none

omit [DecidableEq ε] in
theorem Quiescent.congr (h : Quiescent s) (hsame : SameBatches s t) :
    Quiescent t :=
  ⟨hsame.tracked h.tracked, by rw [hsame.tickets]; exact h.idle, hsame.fault.trans h.fault⟩

/-- A step that stops leaves at most one open batch per record, and none if the runtime can
step again. -/
structure StepStopped (stop : Status × StepState ω ε) : Prop where
  inOrder : ∀ r, AtMostOneOpen r (batchEvents r stop.2.trace)
  quiescent : stop.2.fault = none → Quiescent stop.2

omit [DecidableEq ε] in
theorem Quiescent.stopped (h : Quiescent s) (hsame : SameBatches s t) (status : Status) :
    StepStopped (status, t) :=
  ⟨(h.congr hsame).tracked.inOrder, fun _ => h.congr hsame⟩

theorem omitRange_quiescent (h : Quiescent s) (barrier index : ℕ) :
    Ensures (ctx.omitRange barrier s index) Quiescent StepStopped := by
  have hstopped : ∀ status : Status, StepStopped (status, s) := h.stopped ⟨rfl, rfl, rfl⟩
  simp only [omitRange]
  split
  · refine orReject_bind (hstopped _) fun records => ?_
    refine orReject_bind (hstopped _) fun logical => ?_
    refine orReject_bind (hstopped _) fun nominal => ?_
    exact h.congr ⟨rfl, rfl, rfl⟩
  · exact h

omit [DecidableEq ε] in
theorem groupAt_mem {plan : ActivePlan} {index sequence : ℕ} {group : RateReleaseGroup}
    (h : plan.groupAt index sequence = some group) : group ∈ plan.dispatch.groups ∨ group = {} := by
  simp only [ActivePlan.groupAt] at h
  split at h
  · cases h
  · cases h
    rw [getD_eq_getElem?_getD]
    cases hget : plan.dispatch.groups[plan.dispatch.domainGroupIndices
        (plan.dispatch.domainGroupOffsets index +
          sequence % (plan.domain index).releasesPerSupercycle.toNat)]? with
    | none => exact .inr rfl
    | some group => exact .inl (mem_of_getElem? hget)

variable (hsafe : ctx.plan.CallbacksSafe ctx.machine)

include hsafe

/-- A release that is executed: a failed group has stopped the runtime or left no batch. -/
theorem executeRelease_quiescent (h : Quiescent s) (late : Bool)
    (hgroup : due.group ∈ ctx.plan.dispatch.groups ∨ due.group = {}) :
    Ensures (ctx.executeRelease s due late) Quiescent StepStopped := by
  have hbegun : Quiescent (ctx.beginRelease s due late) := h.congr ⟨rfl, rfl, rfl⟩
  have hgroup := executeActiveGroup_tickets hbegun.tracked hbegun.idle hbegun.fault hgroup hsafe
  unfold executeRelease
  split
  next executed heq =>
    obtain ⟨htracked, hidle, hfault⟩ := hgroup.of_ok heq
    exact Quiescent.congr ⟨htracked, hidle, hfault⟩ ⟨rfl, rfl, rfl⟩
  next status failed heq =>
    have hstop := hgroup.of_error heq
    have htrace : (ctx.failGroup s.summary.executedReferenceRecords failed due late status).trace =
        failed.trace := by
      simp only [failGroup, emitFor, emitRateAction, StepState.emitMixed, faultAfter]
      split <;> rfl
    refine ⟨by rw [htrace]; exact hstop.inOrder, fun hfault => ?_⟩
    have hterminal : ctx.terminalDeviceFailure failed.failedPhase due = false ∧
        failed.fault = none := by
      simp only [failGroup, emitFor, emitRateAction, StepState.emitMixed, faultAfter] at hfault
      split at hfault
      · cases hfault
      next hnot => exact ⟨eq_false_of_ne_true hnot, hfault⟩
    rcases hstop.settled with hsome | hfailure | ⟨htracked, hidle⟩
    · simp [hterminal.2] at hsome
    · simp [hterminal.1] at hfailure
    · refine Quiescent.congr ⟨htracked, hidle, hterminal.2⟩ ⟨?_, htrace, by rw [hfault, hterminal.2]⟩
      simp only [failGroup, emitFor, emitRateAction, StepState.emitMixed, faultAfter]
      split <;> rfl

theorem settleDecided_quiescent (h : Quiescent s) (late : Bool)
    (hgroup : due.group ∈ ctx.plan.dispatch.groups ∨ due.group = {}) :
    Ensures (ctx.settleDecided s due late) Quiescent StepStopped := by
  simp only [settleDecided]
  split
  · exact h.congr ⟨rfl, rfl, rfl⟩
  · split
    · exact h.congr ⟨rfl, rfl, rfl⟩
    · split
      · exact h.congr ⟨rfl, rfl, rfl⟩
      · split
        · exact ⟨h.tracked.inOrder, nofun⟩
        · split
          · exact h.stopped (t := ctx.rejectRelease s due _ late) ⟨rfl, rfl, rfl⟩ _
          · split
            · exact h.stopped (t := ctx.rejectRelease s due _ late) ⟨rfl, rfl, rfl⟩ _
            · exact executeRelease_quiescent hsafe h late hgroup

theorem settleAt_quiescent (h : Quiescent s) (instant index : ℕ) :
    Ensures (ctx.settleAt instant s index) Quiescent StepStopped :=
  settleAt_ensures (fun _ => h) (h.stopped ⟨rfl, rfl, rfl⟩) fun _ _ _ _ _ hgroup =>
    settleDecided_quiescent hsafe (h.congr (t := s.tick) ⟨rfl, rfl, rfl⟩) _ (groupAt_mem hgroup)

/-- One turn of the loop. -/
theorem dispatchTurn_quiescent (h : Quiescent s) :
    Ensures (ctx.dispatchTurn s) (fun t => Quiescent t.1) StepStopped :=
  dispatchTurn_ensures (fun status ht => ht.stopped ⟨rfl, rfl, rfl⟩ status)
    (fun ht => ht.congr ⟨rfl, rfl, rfl⟩) h
    (fun barrier _ _ hprobed => .foldlM_state hprobed fun _ ht index _ =>
      omitRange_quiescent ht barrier index) fun _ ht => settleAt_quiescent hsafe ht

theorem dispatchLoop_quiescent (fuel : ℕ) :
    ∀ {s : StepState ω ε}, Quiescent s →
      Ensures (ctx.dispatchLoop fuel s) Quiescent StepStopped := by
  induction fuel with
  | zero => exact fun h => h.stopped ⟨rfl, rfl, rfl⟩ _
  | succ fuel ih =>
    intro s h
    have hturn := dispatchTurn_quiescent hsafe h
    simp only [dispatchLoop]
    split
    next stop heq => exact hturn.of_error heq
    next t heq => exact ih (hturn.of_ok heq)
    next t heq => exact hturn.of_ok heq

end StepContext

theorem finishStep_batches (ctx : StepContext ω ε) (status : Status) (s : StepState ω ε) :
    (finishStep ctx status s).tickets = s.tickets ∧ (finishStep ctx status s).trace = s.trace ∧
      (finishStep ctx status s).fault = s.fault := by
  simp only [finishStep]
  split
  · exact ⟨rfl, rfl, rfl⟩
  · split <;> exact ⟨rfl, rfl, rfl⟩

/-! ## Runs -/

variable [DecidableEq ε]

/-- A step keeps the ownership of batches. -/
theorem BatchesOwned.step {plan : ActivePlan} {state : ActiveState ω ε} {input : StepInput ω ε}
    (h : BatchesOwned state) (hsafe : plan.CallbacksSafe input.machine) :
    BatchesOwned (plan.step state input).state := by
  rcases step_cases plan state input with ⟨-, hstate⟩ | ⟨ctx, s, hbegun, hstep⟩
  · rw [hstate]
    exact h
  · have hsettled := h.settled hbegun.fault
    have hquiescent : Quiescent s := by
      refine ⟨⟨fun r _ => ?_, fun r t hr => ?_⟩, fun r => ?_, ?_⟩
      · rw [hbegun.state_eq]
        exact (hsettled r).2
      · rw [hbegun.state_eq, (hsettled r).1] at hr
        cases hr
      · rw [hbegun.state_eq]
        exact (hsettled r).1
      · rw [hbegun.state_eq]
        exact hbegun.fault
    have hcallbacks : ctx.plan.CallbacksSafe ctx.machine := by
      rw [hbegun.plan_eq, hbegun.machine_eq]
      exact hsafe
    have hloop := dispatchLoop_quiescent hcallbacks (s.summary.dueDomainReleases + 1) hquiescent
    rw [hstep]
    cases hrun : ctx.dispatchLoop (s.summary.dueDomainReleases + 1) s with
    | ok t =>
      have ht := hloop.of_ok hrun
      obtain ⟨htickets, htrace, hfault⟩ := finishStep_batches ctx .ok t
      refine ⟨fun r => ?_, fun _ r => ⟨?_, ?_⟩⟩
      · simp only [stepOutcome, htrace]
        exact ht.tracked.inOrder r
      · simp only [stepOutcome, htickets]
        exact ht.idle r
      · simp only [stepOutcome, htrace]
        exact ht.tracked.idle r (ht.idle r)
    | error stop =>
      obtain ⟨status, t⟩ := stop
      have ht := hloop.of_error hrun
      obtain ⟨htickets, htrace, hfault⟩ := finishStep_batches ctx status t
      refine ⟨fun r => ?_, fun hnone r => ?_⟩
      · simp only [stepOutcome, htrace]
        exact ht.inOrder r
      · simp only [stepOutcome, hfault] at hnone
        have hq := ht.quiescent hnone
        simp only [stepOutcome, htickets, htrace]
        exact ⟨hq.idle r, hq.tracked.idle r (hq.idle r)⟩

/-- What the host can call between steps.  A checkpoint is given by the state it was taken in. -/
inductive ActiveCall (ω ε : Type)
  | step (input : StepInput ω ε)
  | restoreCheckpoint (saved : ActiveState ω ε)
  | replayActive (saved : ActiveState ω ε) (transcript : ReplayState ε)
      (inputs : List (StepInput ω ε))

/-- The tickets and the telemetry are not part of a checkpoint. -/
def ActiveState.restored (state saved : ActiveState ω ε) : ActiveState ω ε :=
  { saved with
    tickets := state.tickets
    rateLog := state.rateLog
    replay := state.replay
    trace := state.trace }

/-- A call of the host.  Only `replay_active` may restore a runtime that has failed; `inputs` are
those that it gets to. -/
def ActivePlan.call (plan : ActivePlan) (state : ActiveState ω ε) :
    ActiveCall ω ε → Option (ActiveState ω ε)
  | .step input => some (plan.step state input).state
  | .restoreCheckpoint saved =>
    if state.fault = none then some (state.restored saved) else none
  | .replayActive saved transcript inputs =>
    some { plan.run { state.restored saved with replay := some transcript } inputs with
      replay := none }

/-- No CPU record of a step fails behind a device record of its group that nobody has waited for,
and a runtime that has failed is not replayed while a batch is open. -/
def ActivePlan.CallSafe (plan : ActivePlan) (state : ActiveState ω ε) : ActiveCall ω ε → Prop
  | .step input => plan.CallbacksSafe input.machine
  | .restoreCheckpoint _ => True
  | .replayActive _ _ inputs =>
    (state.fault = none ∨ state.Settled) ∧ ∀ input ∈ inputs, plan.CallbacksSafe input.machine

variable {plan : ActivePlan} {state : ActiveState ω ε}

theorem BatchesOwned.run (h : BatchesOwned state) (inputs : List (StepInput ω ε))
    (hsafe : ∀ input ∈ inputs, plan.CallbacksSafe input.machine) :
    BatchesOwned (plan.run state inputs) := by
  induction inputs generalizing state with
  | nil => exact h
  | cons input inputs ih =>
    obtain ⟨hinput, hsafe⟩ := forall_mem_cons.mp hsafe
    exact ih (h.step hinput) hsafe

theorem BatchesOwned.call {call : ActiveCall ω ε} {state' : ActiveState ω ε}
    (h : BatchesOwned state) (hsafe : plan.CallSafe state call)
    (hcall : plan.call state call = some state') : BatchesOwned state' := by
  cases call with
  | step input =>
    cases hcall
    exact h.step hsafe
  | restoreCheckpoint saved =>
    simp only [ActivePlan.call] at hcall
    split at hcall <;> cases hcall
    next hfault => exact ⟨h.inOrder, fun _ => h.settled hfault⟩
  | replayActive saved transcript inputs =>
    cases hcall
    have hsettled : state.Settled := hsafe.1.elim h.settled id
    have hrestored : BatchesOwned { state.restored saved with replay := some transcript } :=
      ⟨h.inOrder, fun _ => hsettled⟩
    have hrun := hrestored.run inputs hsafe.2
    exact ⟨hrun.inOrder, hrun.settled⟩

/-- In a run whose CPU callbacks never fail behind a device record of their group that nobody
has waited for, and in which a runtime that has failed is not replayed while a batch is open,
every state reached owns its batches: each accepted batch is waited for and released once before
the next of its record, and none is open or left behind while the runtime can step again. -/
theorem run_batchesOwned (plan : ActivePlan) (world : ω) {calls : List (ActiveCall ω ε)}
    (hsafe : RunMeets plan.call plan.CallSafe (plan.initialState world) calls)
    (hran : runActions plan.call (plan.initialState world) calls = some state) :
    BatchesOwned state :=
  hsafe.invariant (fun _ _ _ h hcall => h.call hcall)
    ⟨fun _ => Handled.nil.atMostOneOpen, fun _ _ => ⟨rfl, .nil⟩⟩ hran

/-! ## A device record followed by a CPU record -/

def pipelineTimeline : CompiledRatePlan :=
  (compileRateTimeline 7 2 [PhaseHandle.make 7 0, PhaseHandle.make 7 1]
    [{ name := ['a'], periodNs := 10, substepCount := 1, relativeDeadlineNs := 10,
       budgetWcetNs := 1, lateAction := .skip }]
    [{ phase := PhaseHandle.make 7 0, domain := RateDomainHandle.make 7 0, phaseKind := .device },
      { phase := PhaseHandle.make 7 1, domain := RateDomainHandle.make 7 0 }] {}).output

def pipelineDevice : DeviceRateInputs where
  graphOwner := 7
  runtimeOutstandingCapacity := 4
  runtimeCompletionBatchCapacity := 4
  ratePlan := pipelineTimeline
  bindings := [{
    phase := PhaseHandle.make 7 0
    domain := RateDomainHandle.make 7 0
    completionBudgetNs := 5
    maximumInFlight := 1 }]
  backends := [{
    backend := DeviceBackendHandle.make 7 0
    capabilities := {
      maxInFlightBatches := 2
      maxCommandsPerBatch := 1
      maxSignalPoints := 1
      completionBatchCapacity := 1 }
    completionTimestampDomainIdentity := 1
    completionTimestampDomainValid := true }]
  buffers := []
  timelines := [{
    timeline := DeviceTimelineHandle.make 7 0
    backend := DeviceBackendHandle.make 7 0 }]
  phases := [{
    phase := PhaseHandle.make 7 0
    backend := DeviceBackendHandle.make 7 0
    declaration := some {
      commandCount := 1
      signalCount := 1
      commands := fun i => if i = 0 then { kind := commandKindDispatch } else {}
      signals := fun i =>
        if i = 0 then { timelineHandle := (DeviceTimelineHandle.make 7 0).value } else {} } }]

def pipelineDispatch : DispatchInputs where
  graphOwner := 7
  determinismTier := .unspecified
  policy := { maximumDispatchRecordsPerStep := 8 }
  dependencies := []
  ratePlan := pipelineTimeline
  channels := []
  deviceRatePlan := some (compileDeviceRatePlan pipelineDevice {}).output

/-- One domain of period 10 with a device record and, independent of it, a CPU record. -/
def pipelinePlan : ActivePlan where
  ratePlan := pipelineTimeline
  dispatch := (compileRateDispatch pipelineDispatch {}).output
  devicePhases := (compileDeviceRatePlan pipelineDevice {}).output.phases

theorem pipelinePlan_finalized : pipelinePlan.Finalized where
  timeline := ⟨_, _, _, _, _, _, cons_ne_nil _ _, by decide +kernel, rfl⟩
  dispatch := ⟨pipelineDispatch, {}, rfl,
    ⟨rfl, pipelineDevice, {}, rfl, by decide +kernel, rfl⟩, by decide +kernel, rfl⟩

/-- Every batch completes, and every callback ends with the given status; batch numbers
follow the releases. -/
def pipelineMachine (cpuStatus : Status) : ActiveMachine Unit Unit where
  waitRateBatch _ _ := (.terminal .ok 0 0, ())
  captureDeviceOutputs _ _ _ := ((.ok, []), ())
  releaseRateBatch _ _ := (.ok, ())
  describeBatch _ _ := ()
  publishBatch _ _ := []
  generationsExhausted _ _ := false
  closeRateRelease _ _ _ := ()
  prepareDeviceInputs _ _ := { value := .ok, world := () }
  runSelected _ context := {
    value := {
      status := if context.release.phaseKind = .device then .ok else cpuStatus
      submission := some (0, UInt64.ofNat (context.domainReleaseSequence + 1)) }
    world := () }
  substituteSafe _ _ := { value := false, world := () }
  publishChannel _ _ _ := { value := true, world := () }
  expireRateReleasesBefore _ _ := ()

/-- A step over one period, on time. -/
def pipelineStep (cpuStatus : Status) (nominal : UInt64) : StepInput Unit Unit where
  frame := { delta := 10, nominalReleaseNs := some nominal }
  readings := fun _ => 0
  machine := pipelineMachine cpuStatus

/-- The ticket of a release of the device record. -/
def pipelineTicket (sequence : ℕ) : DeviceRateTicket where
  slotIndex := 0
  batchId := UInt64.ofNat (sequence + 1)
  identity := {
    referenceIndex := 0
    domain := RateDomainHandle.make 7 0
    phase := PhaseHandle.make 7 0
    supercycleCycle := sequence
    domainReleaseSequence := sequence
    substepOrdinal := 0
    logicalReleaseNs := 10 * sequence
    nominalReleaseNs := 10 * sequence
    absoluteDeadlineNs := 10 * sequence + 10 }

theorem pipelineMachine_safe : pipelinePlan.CallbacksSafe (pipelineMachine .ok) := by
  intro group _ reference _ _ _ world context _
  exact ⟨by simp [pipelineMachine], fun channel _ => .inl rfl⟩

/-- A step, and a replay of it from the start. -/
def replayedPipeline : List (ActiveCall Unit Unit) :=
  [.step (pipelineStep .ok 0),
    .replayActive (pipelinePlan.initialState ()) { actions := [] } [pipelineStep .ok 0]]

theorem pipeline_batchesOwned :
    ∃ state, runActions pipelinePlan.call (pipelinePlan.initialState ()) replayedPipeline =
        some state ∧
      batchEvents 0 state.trace =
        [.accepted 0 (pipelineTicket 0), .waited 0 (pipelineTicket 0),
          .released 0 (pipelineTicket 0), .accepted 0 (pipelineTicket 0),
          .waited 0 (pipelineTicket 0), .released 0 (pipelineTicket 0)] ∧
      BatchesOwned state := by
  have hsafe : RunMeets pipelinePlan.call pipelinePlan.CallSafe (pipelinePlan.initialState ())
      replayedPipeline :=
    ⟨pipelineMachine_safe, ⟨.inl (by decide +kernel),
      forall_mem_singleton.mpr pipelineMachine_safe⟩, trivial⟩
  exact ⟨_, rfl, by decide +kernel, run_batchesOwned pipelinePlan () hsafe rfl⟩

/-- The CPU record fails while the batch of the device record before it is open. The step
returns with the ticket left behind, the runtime steps again, and the next step accepts
another batch for the same record. -/
theorem pipeline_overwritten :
    pipelinePlan.Finalized ∧
      (pipelinePlan.run (pipelinePlan.initialState ()) [pipelineStep .callbackFailed 0]).fault =
        none ∧
      (pipelinePlan.run (pipelinePlan.initialState ()) [pipelineStep .callbackFailed 0]).tickets 0 =
        some (pipelineTicket 0) ∧
      ¬ BatchesOwned (pipelinePlan.run (pipelinePlan.initialState ())
        [pipelineStep .callbackFailed 0]) ∧
      batchEvents 0 (pipelinePlan.run (pipelinePlan.initialState ())
        [pipelineStep .callbackFailed 0, pipelineStep .callbackFailed 10]).trace =
          [.accepted 0 (pipelineTicket 0), .accepted 0 (pipelineTicket 1)] := by
  have hfault : (pipelinePlan.run (pipelinePlan.initialState ())
      [pipelineStep .callbackFailed 0]).fault = none := by decide +kernel
  have hticket : (pipelinePlan.run (pipelinePlan.initialState ())
      [pipelineStep .callbackFailed 0]).tickets 0 = some (pipelineTicket 0) := by decide +kernel
  refine ⟨pipelinePlan_finalized, hfault, hticket, fun howned => ?_, by decide +kernel⟩
  have hnone := (howned.settled hfault 0).1
  rw [hticket] at hnone
  cases hnone

end RtRuntime
