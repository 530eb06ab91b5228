import RtRuntime.ActiveStep

/-!
# What a step does to the shedding policy

The releases of mandatory domains drive the shedding state: late ones shed the next optional
domain, those on time let the last one recover. This file follows the shedding state, the
rate actions and the settled releases through the functions of a step. Executing records
leaves all of them alone (`Aside`); settling releases moves them on (`Continues`).
-/

namespace RtRuntime

open ActivePlan

variable {ω ε : Type}

/-! ## The shedding policy -/

/-- The late streak does not exceed its threshold, as `finalize` and `restore` leave it. -/
def ActivePlan.StreakBounded (plan : ActivePlan) (shedding : Option ActiveSheddingState) : Prop :=
  ∀ state ∈ shedding, state.consecutiveLate ≤ plan.dispatch.policy.consecutiveLateThreshold

variable {plan : ActivePlan}

theorem observeLate_bounded {shedding : ActiveSheddingState}
    (h : shedding.consecutiveLate ≤ plan.dispatch.policy.consecutiveLateThreshold) :
    (observeLate plan shedding).1.consecutiveLate ≤
      plan.dispatch.policy.consecutiveLateThreshold := by
  have hcount : (if shedding.consecutiveLate < plan.dispatch.policy.consecutiveLateThreshold then
      shedding.consecutiveLate + 1 else shedding.consecutiveLate) ≤
        plan.dispatch.policy.consecutiveLateThreshold := by
    split
    next hlt =>
      rw [UInt32.lt_iff_toNat_lt] at hlt
      rw [UInt32.le_iff_toNat_le, UInt32.toNat_add]
      exact (Nat.mod_le _ _).trans hlt
    · exact h
  simp only [observeLate]
  generalize (if shedding.consecutiveLate < plan.dispatch.policy.consecutiveLateThreshold then
    shedding.consecutiveLate + 1 else shedding.consecutiveLate) = count at hcount ⊢
  split
  · split
    · exact hcount
    · exact UInt32.zero_le
  · exact hcount

theorem observeOnTime_bounded (plan : ActivePlan) (shedding : ActiveSheddingState) :
    (observeOnTime plan shedding).1.consecutiveLate ≤
      plan.dispatch.policy.consecutiveLateThreshold := by
  simp only [observeOnTime]
  generalize (if shedding.consecutiveOnTime < plan.dispatch.policy.consecutiveOnTimeThreshold then
    shedding.consecutiveOnTime + 1 else shedding.consecutiveOnTime) = count
  split
  · split <;> exact UInt32.zero_le
  · exact UInt32.zero_le

variable {s : StepState ω ε}

theorem observe_bounded (h : plan.StreakBounded s.shedding) (index : ℕ) (late : Bool) :
    plan.StreakBounded (s.observe plan index late).shedding := by
  intro state hstate
  simp only [StepState.observe, StepState.observation] at hstate
  split at hstate
  · exact h state hstate
  · cases hshedding : s.shedding with
    | none =>
      rw [hshedding] at hstate
      cases hstate
    | some shedding =>
      rw [hshedding] at hstate
      obtain rfl : (observeRelease plan late shedding).1 = state := Option.some.inj hstate
      cases late with
      | true => exact observeLate_bounded (h shedding hshedding)
      | false => exact observeOnTime_bounded plan shedding

theorem shedBit_ne_zero (index : ℕ) : shedBit index ≠ 0 := by
  intro h
  have hnat := congrArg UInt64.toNat h
  have hlt : 2 ^ (index % 2 ^ 64 % 64) < 2 ^ 64 :=
    Nat.pow_lt_pow_right (by omega) (Nat.mod_lt _ (by omega))
  rw [shedBit, UInt64.toNat_shiftLeft, UInt64.toNat_ofNat', UInt64.toNat_one,
    Nat.one_shiftLeft, Nat.mod_eq_of_lt hlt] at hnat
  exact absurd hnat (Nat.two_pow_pos _).ne'

theorem or_and_eq_of_left {mask other bit : UInt64} (h : mask &&& bit = bit) :
    (mask ||| other) &&& bit = bit := by
  apply UInt64.toBitVec_inj.mp
  have hbits := congrArg UInt64.toBitVec h
  simp only [UInt64.toBitVec_and, UInt64.toBitVec_or] at hbits ⊢
  ext i hi
  have hi' := congrArg (fun v => v.getLsbD i) hbits
  simp only [BitVec.getElem_and, BitVec.getElem_or, BitVec.getLsbD_eq_getElem hi] at hi' ⊢
  grind

/-- The mask of all optional domains has the bit of each. -/
theorem optionalMask_and_shedBit {index : ℕ} (h : index ∈ plan.dispatch.optionalShedOrder) :
    plan.optionalMask &&& shedBit index = shedBit index := by
  have hfold : ∀ (order : List ℕ) (mask : UInt64),
      mask &&& shedBit index = shedBit index ∨ index ∈ order →
      order.foldl (fun mask index => mask ||| shedBit index) mask &&&
        shedBit index = shedBit index := by
    intro order
    induction order with
    | nil => exact fun mask h => h.elim id nofun
    | cons head order ih =>
      intro mask hmem
      refine ih _ ?_
      rcases hmem with hmask | hmem
      · exact .inl (or_and_eq_of_left hmask)
      · rcases List.mem_cons.mp hmem with rfl | hmem
        · have hself : (shedBit index ||| mask) &&& shedBit index =
              shedBit index := or_and_eq_of_left UInt64.and_self
          rw [UInt64.or_comm] at hself
          exact .inl hself
        · exact .inr hmem
  exact hfold _ 0 (.inr h)

/-- No optional domain is left to be shed. -/
def ActivePlan.AllShed (plan : ActivePlan) (mask : UInt64) : Prop :=
  ∀ index ∈ plan.dispatch.optionalShedOrder, mask &&& ActivePlan.shedBit index ≠ 0

theorem allShed_of_mask {mask : UInt64} (h : mask &&& plan.optionalMask = plan.optionalMask) :
    plan.AllShed mask := by
  intro index hindex
  have hbit : mask &&& shedBit index = shedBit index := by
    rw [← optionalMask_and_shedBit hindex, ← UInt64.and_assoc, h]
  rw [hbit]
  exact shedBit_ne_zero index

/-- With every optional domain shed a late release only counts. -/
theorem observeLate_of_allShed {shedding : ActiveSheddingState}
    (h : plan.AllShed shedding.shedMask) :
    (observeLate plan shedding).1 = { shedding with
      consecutiveOnTime := 0
      consecutiveLate :=
        if shedding.consecutiveLate < plan.dispatch.policy.consecutiveLateThreshold then
          shedding.consecutiveLate + 1 else shedding.consecutiveLate } := by
  have hnone : plan.dispatch.optionalShedOrder.find?
      (fun index => shedding.shedMask &&& shedBit index = 0) = none :=
    List.find?_eq_none.mpr fun index hindex => by simpa using h index hindex
  simp only [observeLate, hnone, ite_self]

/-- The counter counts up to its threshold and stays there. -/
theorem observeLate_iterate (n : ℕ) :
    ∀ {shedding : ActiveSheddingState}, plan.AllShed shedding.shedMask →
      shedding.consecutiveLate ≤ plan.dispatch.policy.consecutiveLateThreshold →
      (fun shedding => (observeLate plan shedding).1)^[n + 1] shedding = { shedding with
        consecutiveOnTime := 0
        consecutiveLate := .ofNat (min plan.dispatch.policy.consecutiveLateThreshold.toNat
          (shedding.consecutiveLate.toNat + (n + 1))) } := by
  have hbound := plan.dispatch.policy.consecutiveLateThreshold.toNat_lt
  have hcount {count : UInt32} (hle : count ≤ plan.dispatch.policy.consecutiveLateThreshold) :
      (if count < plan.dispatch.policy.consecutiveLateThreshold then count + 1 else count).toNat =
        min plan.dispatch.policy.consecutiveLateThreshold.toNat (count.toNat + 1) := by
    rw [UInt32.le_iff_toNat_le] at hle
    simp only [UInt32.lt_iff_toNat_lt]
    split
    · rw [UInt32.toNat_add, UInt32.toNat_one, Nat.mod_eq_of_lt (by omega)]
      omega
    · omega
  induction n with
  | zero =>
    intro shedding hall hle
    rw [Function.iterate_one, observeLate_of_allShed hall, ← hcount hle, UInt32.ofNat_toNat]
  | succ n ih =>
    intro shedding hall hle
    have hstep := observeLate_of_allShed hall
    have hmask : (observeLate plan shedding).1.shedMask = shedding.shedMask := by rw [hstep]
    rw [Function.iterate_succ_apply, ih (by rw [hmask]; exact hall) (observeLate_bounded hle), hstep]
    dsimp only
    rw [hcount hle]
    congr 2
    omega

/-- Observing the releases of a mandatory domain one by one. -/
theorem observe_iterate_shedding {index : ℕ} (h : (plan.domain index).optional = false) (n : ℕ) :
    ∀ s : StepState ω ε, ((fun t => t.observe plan index true)^[n] s).shedding =
      s.shedding.map (fun shedding => (observeLate plan shedding).1)^[n] := by
  induction n with
  | zero => exact fun s => by simp
  | succ n ih =>
    intro s
    rw [Function.iterate_succ_apply, ih]
    cases hshedding : s.shedding <;>
      simp [StepState.observe, StepState.observation, h, hshedding, observeRelease]

/-! ## What the loop leaves alone -/

/-- Executing records neither settles a release nor touches the shedding state. -/
structure Aside (s t : StepState ω ε) : Prop where
  next : t.next = s.next
  shedding : t.shedding = s.shedding
  rateLog : t.rateLog = s.rateLog
  replay : s.replay = none → t.replay = none

namespace Aside

theorem refl (s : StepState ω ε) : Aside s s := ⟨rfl, rfl, rfl, id⟩

theorem trans {t u : StepState ω ε} (h : Aside s t) (h' : Aside t u) : Aside s u :=
  ⟨h'.next.trans h.next, h'.shedding.trans h.shedding, h'.rateLog.trans h.rateLog,
    fun hnone => h'.replay (h.replay hnone)⟩

/-- A computation that leaves the policy alone, whether it succeeds or stops. -/
abbrev Of (s : StepState ω ε) {α : Type} (x : Progress ω ε α) (state : α → StepState ω ε) : Prop :=
  Ensures x (fun a => Aside s (state a)) fun stop => Aside s stop.2

theorem failRecord {t : StepState ω ε} (h : Aside s t) (release : ReferenceRelease) (sequence : ℕ) :
    Aside s (t.failRecord release sequence) :=
  h.trans ⟨rfl, rfl, rfl, id⟩

theorem normalizeCompletion (s : StepState ω ε) (ticket : DeviceRateTicket)
    (completion : DeviceRateCompletion) :
    Aside s (StepContext.normalizeCompletion s ticket completion).2 := by
  unfold StepContext.normalizeCompletion
  split
  · exact refl s
  next replay hreplay =>
    have hmismatch : Aside s { s with replay := some { replay with mismatch := true } } :=
      ⟨rfl, rfl, rfl, fun hnone => nomatch hreplay.symm.trans hnone⟩
    split
    · split
      · exact refl s
      · exact hmismatch
    · exact hmismatch

variable [DecidableEq ε]

theorem emitMixed (s : StepState ω ε) (records : List (MixedRateAction ε)) :
    Aside s (s.emitMixed records) :=
  ⟨rfl, rfl, rfl, fun hnone => by simp [StepState.emitMixed, hnone]⟩

theorem receive {α : Type} (s : StepState ω ε) (reply : Reply ω ε α) : Aside s (s.receive reply) :=
  ⟨rfl, rfl, rfl, fun hnone => by simp [StepState.receive, StepState.emitMixed, hnone]⟩

variable (ctx : StepContext ω ε)

theorem finishBatch (s : StepState ω ε) (reference : ℕ) (ticket : DeviceRateTicket) :
    Aside s (ctx.finishBatch s reference ticket).2 := by
  have hcapture : ∀ (t : StepState ω ε) completion status,
      Aside t (ctx.captureOutputs t ticket completion status).2 := by
    intro t completion status
    unfold StepContext.captureOutputs
    split
    · exact ⟨rfl, rfl, rfl, id⟩
    · exact refl t
  have hrelease : ∀ (t : StepState ω ε) owned status,
      Aside t (ctx.releaseOwned t reference ticket owned status).2 := by
    intro t owned status
    unfold StepContext.releaseOwned
    split
    · exact ⟨rfl, rfl, rfl, id⟩
    · exact refl t
  have hwait : Aside s { s with
      world := (ctx.machine.waitRateBatch s.world ticket).2
      trace := s.trace ++ [.waited reference ticket] } := ⟨rfl, rfl, rfl, id⟩
  unfold StepContext.finishBatch StepContext.reportCompletion
  dsimp only
  exact Aside.trans ((((hwait.trans (normalizeCompletion _ ticket _)).trans
    (hcapture _ _ _)).trans (hrelease _ _ _)).trans (emitMixed _ _)) ⟨rfl, rfl, rfl, id⟩

theorem waitForReference (sequence : ℕ) (s : StepState ω ε) (reference : ℕ) :
    Of s (ctx.waitForReference sequence s reference) id := by
  unfold StepContext.waitForReference
  split
  · exact refl s
  next ticket _ =>
    dsimp only
    split
    · exact finishBatch ctx s reference ticket
    · exact (finishBatch ctx s reference ticket).failRecord _ _

theorem waits (sequence : ℕ) (s : StepState ω ε) (references : List ℕ) :
    Of s (references.foldlM (ctx.waitForReference sequence) s) id :=
  .foldlM_state (refl s) fun t ht reference _ =>
    (waitForReference ctx sequence t reference).mono (fun _ h => ht.trans h) fun _ h => ht.trans h

variable (due : DueRelease)

omit [DecidableEq ε] in
theorem beginRecord (s : StepState ω ε) (reference : ℕ) :
    Of s (ctx.beginRecord due s reference) id := by
  simp only [StepContext.beginRecord]
  split <;> exact ⟨rfl, rfl, rfl, id⟩

theorem prepareRecord (s : StepState ω ε) (reference : ℕ) :
    Of s (ctx.prepareRecord due s reference) Prod.fst := by
  simp only [StepContext.prepareRecord]
  split
  · split
    · exact (refl s).failRecord _ _
    · split
      · exact receive s _
      · exact (receive s _).failRecord _ _
  · exact refl s

theorem callRecord (s : StepState ω ε) (reference payloadSlot : ℕ) :
    Of s (ctx.callRecord due s reference payloadSlot) Prod.fst := by
  have hreturn : ∀ reply, Aside s (ctx.returnFrom due s reference reply) := fun reply =>
    (receive s reply).trans ⟨rfl, rfl, rfl, id⟩
  simp only [StepContext.callRecord]
  split
  · exact (hreturn _).failRecord _ _
  · split
    · split
      · exact (hreturn _).failRecord _ _
      · exact (hreturn _).trans ⟨rfl, rfl, rfl, id⟩
    · exact hreturn _

theorem requirePublication (reference : ℕ) (outcome : RunOutcome) (s : StepState ω ε)
    (channel : ℕ) : Of s (ctx.requirePublication due reference outcome s channel) id := by
  simp only [StepContext.requirePublication]
  split
  · exact refl s
  · split
    · exact receive s _
    · exact (receive s _).failRecord _ _

theorem commitChannel (reference : ℕ) (s : StepState ω ε) (channel : ℕ) :
    Of s (ctx.commitChannel due reference s channel) id := by
  simp only [StepContext.commitChannel]
  split <;> exact (receive s _).trans ⟨rfl, rfl, rfl, id⟩

theorem runRecord (s : StepState ω ε) (reference : ℕ) : Of s (ctx.runRecord due s reference) id := by
  have hthen : ∀ {α : Type} {t : StepState ω ε} {x : Progress ω ε α} {state : α → StepState ω ε},
      Aside s t → Of t x state → Of s x state :=
    fun ht hx => hx.mono (fun _ h => ht.trans h) fun _ h => ht.trans h
  refine Ensures.bind (waits ctx due.sequence s _) fun s₁ h₁ => ?_
  refine Ensures.bind (hthen h₁ (beginRecord ctx due s₁ reference)) fun s₂ h₂ => ?_
  refine Ensures.bind (hthen h₂ (prepareRecord ctx due s₂ reference)) fun ⟨s₃, slot⟩ h₃ => ?_
  refine Ensures.bind (hthen h₃ (callRecord ctx due s₃ reference slot)) fun ⟨s₄, outcome⟩ h₄ => ?_
  refine Ensures.bind (P := Aside s) (.foldlM_state h₄ fun t ht channel _ =>
    hthen ht (requirePublication ctx due reference outcome t channel)) fun s₅ h₅ => ?_
  exact .foldlM_state h₅ fun t ht channel _ => hthen ht (commitChannel ctx due reference t channel)

theorem executeActiveGroup (s : StepState ω ε) : Of s (ctx.executeActiveGroup due s) id := by
  refine Ensures.bind (P := Aside s) (.foldlM_state (refl s) fun t ht reference _ => ?_)
    fun t ht => ?_
  · exact (runRecord ctx due t reference).mono (fun _ h => ht.trans h) fun _ h => ht.trans h
  · exact (waits ctx due.sequence t _).mono (fun _ h => ht.trans h) fun _ h => ht.trans h

end Aside

/-! ## What the loop settles -/

/-- The loop settles the releases of a domain in order and before the end of the step, keeps the late
streak within its threshold and emits records with `E`. -/
structure Continues (ctx : StepContext ω ε) (E : RateActionRecord → Prop) (s t : StepState ω ε) :
    Prop where
  next : ∀ index, s.next index ≤ t.next index
  within : ∀ index, t.next index ≤ max (s.next index) (ctx.endSequence index)
  streak : ctx.plan.StreakBounded s.shedding → ctx.plan.StreakBounded t.shedding
  replay : s.replay = none → t.replay = none
  log : ∃ emitted, t.rateLog = s.rateLog ++ emitted ∧ ∀ record ∈ emitted, E record

namespace Continues

variable {ctx : StepContext ω ε} {E : RateActionRecord → Prop}

theorem refl (s : StepState ω ε) : Continues ctx E s s :=
  ⟨fun _ => le_rfl, fun _ => le_max_left _ _, id, id, [], (List.append_nil _).symm,
    List.forall_mem_nil _⟩

variable {t : StepState ω ε}

theorem trans {u : StepState ω ε} (h : Continues ctx E s t) (h' : Continues ctx E t u) :
    Continues ctx E s u := by
  obtain ⟨first, hfirst, hE⟩ := h.log
  obtain ⟨second, hsecond, hE'⟩ := h'.log
  refine ⟨fun index => (h.next index).trans (h'.next index),
    fun index => (h'.within index).trans (max_le (h.within index) (le_max_right _ _)),
    fun hs => h'.streak (h.streak hs), fun hnone => h'.replay (h.replay hnone), first ++ second, ?_, ?_⟩
  · rw [hsecond, hfirst, List.append_assoc]
  · intro record hrecord
    rcases List.mem_append.mp hrecord with hmem | hmem
    · exact hE record hmem
    · exact hE' record hmem

theorem of_aside (h : Aside s t) : Continues ctx E s t :=
  ⟨fun index => by rw [h.next], fun index => by rw [h.next]; exact le_max_left _ _,
    by rw [h.shedding]; exact id, h.replay, [], by rw [h.rateLog, List.append_nil],
    List.forall_mem_nil _⟩

theorem advance {due : DueRelease} (h : s.next due.index = due.sequence)
    (hend : due.sequence < ctx.endSequence due.index) : Continues ctx E s (s.advance due) := by
  refine ⟨fun index => ?_, fun index => ?_, id, id, [], (List.append_nil _).symm,
    List.forall_mem_nil _⟩ <;> by_cases hindex : index = due.index
  · subst hindex
    simp [StepState.advance, h]
  · simp [StepState.advance, hindex]
  · subst hindex
    simpa [StepState.advance] using Or.inr hend
  · simp [StepState.advance, hindex]

theorem observe (s : StepState ω ε) (index : ℕ) (late : Bool) :
    Continues ctx E s (s.observe ctx.plan index late) :=
  ⟨fun _ => le_rfl, fun _ => le_max_left _ _, fun hs => observe_bounded hs index late, id, [],
    (List.append_nil _).symm, List.forall_mem_nil _⟩

variable [DecidableEq ε]

theorem emitRateAction (s : StepState ω ε)
    (index firstSequence logical nominal releases records : ℕ) (action : RateActionId)
    (reason : RateActionReason) (late : Bool) (transition : PolicyTransition) (status : Status)
    (hE : ∀ record : RateActionRecord, record.releaseCount = releases →
      record.transition = transition → E record) :
    Continues ctx E s (ctx.emitRateAction s index firstSequence logical nominal releases records
      action reason late transition status) :=
  ⟨fun _ => le_rfl, fun _ => le_max_left _ _, id, fun hnone => by
    simp [StepContext.emitRateAction, StepState.emitMixed, hnone], [_], rfl, by
    rintro record (_ | ⟨_, ⟨⟩⟩)
    exact hE _ rfl rfl⟩

/-- A computation that continues from `s`, whether it succeeds or stops. -/
abbrev Of (ctx : StepContext ω ε) (E : RateActionRecord → Prop) (s : StepState ω ε) {α : Type}
    (x : Progress ω ε α) (state : α → StepState ω ε) : Prop :=
  Ensures x (fun a => Continues ctx E s (state a)) fun stop => Continues ctx E s stop.2

omit [DecidableEq ε] in
theorem Of.after {α : Type} {x : Progress ω ε α} {state : α → StepState ω ε}
    (ht : Continues ctx E s t) (hx : Of ctx E t x state) : Of ctx E s x state :=
  hx.mono (fun _ h => ht.trans h) fun _ h => ht.trans h

variable (hsingle : ∀ record : RateActionRecord, record.releaseCount = 1 → E record)
  {due : DueRelease} {s : StepState ω ε}

include hsingle

theorem emitFor (h : Continues ctx E s t) (due : DueRelease)
    (action : RateActionId) (reason : RateActionReason) (late : Bool)
    (transition : PolicyTransition) (status : Status) :
    Continues ctx E s (ctx.emitFor t due action reason late transition status) :=
  h.trans (emitRateAction _ _ _ _ _ _ _ _ _ _ _ _ fun record hcount _ => hsingle record hcount)

theorem executeRelease (hdue : s.next due.index = due.sequence)
    (hend : due.sequence < ctx.endSequence due.index) (late : Bool) :
    Of ctx E s (ctx.executeRelease s due late) id := by
  have hbegin : Continues ctx E s (ctx.beginRelease s due late) :=
    of_aside ⟨rfl, rfl, rfl, id⟩
  have hgroup := Aside.executeActiveGroup ctx due (ctx.beginRelease s due late)
  unfold StepContext.executeRelease
  split
  next executed heq =>
    have hexecuted := hgroup.of_ok heq
    have hnext : executed.next due.index = due.sequence :=
      (congrFun hexecuted.next due.index).trans hdue
    refine hbegin.trans ((of_aside hexecuted).trans ?_)
    unfold StepContext.completeGroup
    refine Continues.trans ?_ (advance hnext hend)
    refine emitFor hsingle (Continues.trans ?_ (observe _ _ _)) _ _ _ _ _ _
    exact of_aside ⟨rfl, rfl, rfl, id⟩
  next status failed heq =>
    refine hbegin.trans ((of_aside (hgroup.of_error heq)).trans ?_)
    unfold StepContext.failGroup
    refine emitFor hsingle (of_aside ?_) _ _ _ _ _ _
    unfold StepContext.faultAfter
    split <;> exact ⟨rfl, rfl, rfl, id⟩

theorem settleDecided (hdue : s.next due.index = due.sequence)
    (hend : due.sequence < ctx.endSequence due.index) (late : Bool) :
    Of ctx E s (ctx.settleDecided s due late) id := by
  have homitted : ∀ action, Continues ctx E s (ctx.settleOmitted s due action) := by
    intro action
    unfold StepContext.settleOmitted
    refine Continues.trans ?_ (advance hdue hend)
    refine emitFor hsingle (Continues.trans ?_ (observe _ _ _)) _ _ _ _ _ _
    exact of_aside ⟨rfl, rfl, rfl, id⟩
  have hreject : ∀ action, Continues ctx E s (ctx.rejectRelease s due action late) := by
    intro action
    refine emitFor (t := ctx.rejectRest s 0) hsingle ?_ _ _ _ _ _ _
    exact of_aside ⟨rfl, rfl, rfl, id⟩
  simp only [StepContext.settleDecided]
  split
  · refine Continues.trans ?_ (advance hdue hend)
    refine emitFor hsingle ?_ _ _ _ _ _ _
    exact of_aside ⟨rfl, rfl, rfl, id⟩
  · split
    · exact homitted _
    · split
      · exact homitted _
      · split
        · unfold StepContext.failLate
          refine emitFor hsingle ?_ _ _ _ _ _ _
          exact of_aside ⟨rfl, rfl, rfl, id⟩
        · split
          · exact hreject _
          · split
            · exact hreject _
            · exact executeRelease hsingle hdue hend late

theorem settleAt (instant index : ℕ) : Of ctx E s (ctx.settleAt instant s index) id := by
  refine StepContext.settleAt_ensures (fun _ => refl s) (fun _ => refl s)
    fun due late hindex hnext hopen _ => ?_
  have htick : Continues ctx E s s.tick := of_aside ⟨rfl, rfl, rfl, id⟩
  have hend : due.sequence < ctx.endSequence due.index := by
    rw [hindex, hnext]
    exact of_decide_eq_true hopen
  exact Of.after htick (settleDecided (s := s.tick) hsingle (hindex ▸ hnext.symm) hend late)

end Continues

end RtRuntime

