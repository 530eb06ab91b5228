import RtRuntime.RateRanges

/-!
# The turns of the dispatch loop

A turn stops the step, or finds nothing left, or settles a release that is due.  So the releases
that are due bound the turns, whatever the clock says.
-/

namespace RtRuntime

open StepContext List Function

variable {ω ε : Type} [DecidableEq ε] {ctx : StepContext ω ε} {s t : StepState ω ε}

namespace StepContext

/-- From `s` to `t` releases are settled in order, all of them before the end of the step. -/
structure Settles (ctx : StepContext ω ε) (s t : StepState ω ε) : Prop where
  mono : ∀ index, s.next index ≤ t.next index
  before_end : ∀ index sequence, s.next index ≤ sequence → sequence < t.next index →
    sequence < ctx.endSequence index

omit [DecidableEq ε] in
theorem Settles.of_continues {E : RateActionRecord → Prop} (h : Continues ctx E s t) :
    ctx.Settles s t :=
  ⟨h.next, fun index _ low high =>
    (lt_max_iff.mp (high.trans_le (h.within index))).resolve_left low.not_gt⟩

/-! ## One turn -/

theorem settleDecided_next (s : StepState ω ε) (due : DueRelease) (late : Bool) :
    Ensures (ctx.settleDecided s due late) (fun t => t.next due.index = due.sequence + 1)
      fun _ => True := by
  have executes : Ensures (ctx.executeRelease s due late)
      (fun t => t.next due.index = due.sequence + 1) fun _ => True := by
    unfold executeRelease
    split
    · exact update_self _ _ _
    · trivial
  simp only [settleDecided]
  repeat' split
  all_goals first | exact executes | exact update_self _ _ _ | trivial

/-- A release that is due at the instant is settled. -/
theorem settleAt_advances (instant : ℕ) (s : StepState ω ε) (index : ℕ) :
    Ensures (ctx.settleAt instant s index) (fun t => ctx.isDue s index →
      s.next index * ctx.plan.period index = instant → s.next index < t.next index)
      fun _ => True := by
  refine settleAt_ensures (fun other due here => absurd ⟨due, here⟩ other) (fun _ => trivial) ?_
  rintro due late rfl sequence - -
  refine (settleDecided_next s.tick due late).mono (fun t next _ _ => ?_) fun _ => id
  rw [next, ← sequence]
  exact Nat.lt_succ_self _

omit [DecidableEq ε] in
/-- The instant found is that of a release which is due. -/
theorem earliest_due {instant : ℕ}
    (found : ctx.indices.foldlM (ctx.earliest s) none = .ok (some instant)) :
    ∃ index ∈ ctx.indices, ctx.isDue s index ∧ s.next index * ctx.plan.period index = instant := by
  refine foldlM_invariant (P := fun done best => ∀ i ∈ best, ∃ index ∈ done, ctx.isDue s index ∧
    s.next index * ctx.plan.period index = i) found nofun ?_ instant rfl
  rintro done index rest best best' - before turn i is
  simp only [earliest] at turn
  split at turn
  next due =>
    obtain ⟨logical, product, rfl⟩ : ∃ logical, checkedMultiply (s.next index)
        (ctx.plan.period index) = some logical ∧ some (min (best.getD ctx.endNs) logical) = best' := by
      simpa [bind_eq_ok, orStop, orReject_eq_ok, pure, Except.pure] using turn
    obtain ⟨-, rfl⟩ := checkedMultiply_eq_some.mp product
    obtain rfl := Option.some.inj is
    have below := lt_of_lt_ceilSequence (of_decide_eq_true due)
    rcases min_choice (best.getD ctx.endNs) (s.next index * ctx.plan.period index) with first | own
    · cases best with
      | none =>
        rw [Option.getD_none] at first
        exact absurd (min_eq_left_iff.mp first) below.not_ge
      | some earlier =>
        obtain ⟨other, inside, rest⟩ := before earlier rfl
        exact ⟨other, mem_append_left _ inside, rest.1, rest.2.trans first.symm⟩
    · exact ⟨index, mem_concat_self, due, own.symm⟩
  · cases turn
    obtain ⟨other, inside, rest⟩ := before i is
    exact ⟨other, mem_append_left _ inside, rest⟩

/-- A turn after which the loop goes on has settled a release that was due. -/
theorem dispatchTurn_advances (turn : ctx.dispatchTurn s = .ok (t, true)) :
    ∃ index ∈ ctx.indices, ctx.isDue s index ∧ s.next index < t.next index := by
  simp only [dispatchTurn, bind_eq_ok] at turn
  obtain ⟨⟨barrier, probed⟩, probes, s₂, omits, instant, found, settled⟩ := turn
  obtain ⟨reads, rfl, -⟩ := probeDomains_eq_ok probes
  have before := ((omitRanges_continues (E := fun _ => True) (fun _ _ _ _ _ _ => trivial) probes
    (.of_aside ⟨rfl, rfl, rfl, id⟩)).of_ok omits).next
  cases instant with
  | none => simp [settleInstant] at settled
  | some instant =>
    obtain ⟨index, member, due, here⟩ := earliest_due found
    have folded : ctx.indices.foldlM (ctx.settleAt instant) s₂ = .ok t := by
      simp only [settleInstant] at settled
      cases ran : ctx.indices.foldlM (ctx.settleAt instant) s₂ <;> simp_all [Except.map]
    -- until its turn comes, the domain keeps its next release or has gone beyond it
    have advanced := (foldlM_invariant (P := fun done t => s₂.next index ≤ t.next index ∧
      (index ∈ done → s₂.next index < t.next index)) folded ⟨le_rfl, by rintro ⟨⟩⟩ ?_).2 member
    · exact ⟨index, member, decide_eq_true ((before index).trans_lt (of_decide_eq_true due)),
        (before index).trans_lt advanced⟩
    rintro done other rest u u' - ⟨low, passed⟩ turn
    have next := ((Continues.settleAt (E := fun _ => True) (fun _ _ => trivial) instant
      other).of_ok turn).next index
    refine ⟨low.trans next, fun inside => ?_⟩
    rcases mem_append.mp inside with old | new
    · exact (passed old).trans_le next
    · obtain rfl := mem_singleton.mp new
      rcases low.eq_or_lt with same | beyond
      · rw [same]
        refine (settleAt_advances instant u index).of_ok turn ?_ (same ▸ here)
        rwa [isDue, ← same]
      · exact beyond.trans_le next

/-! ## The loop -/

/-- The releases of the step that are not settled. -/
def remaining (ctx : StepContext ω ε) (s : StepState ω ε) : ℕ :=
  (ctx.indices.map fun index => ctx.endSequence index - s.next index).sum

theorem dispatchTurn_settles (ctx : StepContext ω ε) (s : StepState ω ε) :
    Ensures (ctx.dispatchTurn s) (fun turn => ctx.Settles s turn.1) fun stop =>
      ctx.Settles s stop.2 :=
  (dispatchTurn_continues (E := fun _ => True) (fun _ _ _ _ _ _ => trivial) fun _ _ => trivial).mono
    (fun _ => .of_continues) fun _ => .of_continues

/-- With a turn for each release that is left and one more, the loop ends by itself. -/
theorem dispatchLoop_ends {first : StepState ω ε} (fuel : ℕ) :
    ∀ {s : StepState ω ε}, ctx.TurnReached first s → ctx.remaining s < fuel →
      ∃ last, ctx.TurnReached first last ∧ (∀ t, ctx.dispatchTurn last ≠ .ok (t, true)) ∧
        ctx.dispatchLoop fuel s = (ctx.dispatchTurn last).map Prod.fst := by
  induction fuel with
  | zero => exact fun _ enough => absurd enough (Nat.not_lt_zero _)
  | succ fuel ih =>
    intro s reached enough
    simp only [dispatchLoop]
    split
    next stop turn => exact ⟨s, reached, by simp [turn], by rw [turn]; rfl⟩
    next t turn =>
      have settles := (dispatchTurn_settles ctx s).of_ok turn
      obtain ⟨index, member, due, advanced⟩ := dispatchTurn_advances turn
      refine ih (reached.next turn) ((sum_lt_sum _ _ (fun i _ => ?_) ⟨index, member, ?_⟩).trans_le
        (Nat.lt_succ_iff.mp enough))
      · exact Nat.sub_le_sub_left (settles.mono i) _
      · exact Nat.sub_lt_sub_left (of_decide_eq_true due) advanced
    next t turn => exact ⟨s, reached, by simp [turn], by rw [turn]; rfl⟩

theorem ceilDiv_eq_some {value divisor result : ℕ} (fits : value ≤ u64Max)
    (h : ceilDiv value divisor = some result) :
    result ≤ u64Max ∧ result = ceilSequence value divisor := by
  have := Nat.div_le_self value divisor
  unfold ceilDiv at h
  unfold ceilSequence
  split_ifs at * <;> grind

omit [DecidableEq ε] in
/-- The due releases that a step counts are those its loop has to settle. -/
theorem remaining_eq {plan : ActivePlan} {state : ActiveState ω ε} {input : StepInput ω ε}
    (begun : StepBegun plan state input ctx s) :
    ctx.remaining s = s.summary.dueDomainReleases := by
  obtain ⟨counts, counted, -, total⟩ := begun.counts
  simp only [countDueRateWork, reject_bind_eq_ok] at counted
  rw [total, remaining, begun.next_eq, ← begun.plan_eq, indices, begun.plan_eq]
  refine (foldlM_invariant (P := fun done counts => counts.domainReleases = (done.map fun index =>
    ctx.endSequence index - ceilSequence state.logicalCursorNs (plan.period index)).sum)
    counted.2 rfl ?_).symm
  rintro done index rest due due' - ih turn
  simp only [addDueDomain, bind_eq_ok, orReject_eq_ok] at turn
  obtain ⟨own, counted, releases, sum, records, -, is⟩ := turn
  cases is
  cases mapped : countDueDomainReleases plan.ratePlan plan.dispatch index state.logicalCursorNs
      ctx.endNs with
  | error status => simp [mapped, Except.mapError] at counted
  | ok count =>
    rw [mapped] at counted
    cases counted
    simp only [countDueDomainReleases, bind_eq_ok, orReject_eq_ok] at mapped
    obtain ⟨-, -, domain, at_, -, -, first, first_eq, last, last_eq, -, -, records, -, is⟩ := mapped
    cases is
    obtain ⟨-, rfl⟩ := ceilDiv_eq_some begun.cursor_le first_eq
    obtain ⟨fits, rfl⟩ := ceilDiv_eq_some (by have := begun.window_le; omega) last_eq
    obtain ⟨-, rfl⟩ := (checkedAdd_eq_some ((Nat.sub_le _ _).trans fits)).mp sum
    have period : plan.period index = domain.periodNs.toNat := by
      rw [ActivePlan.period, ActivePlan.domain, getD_eq_getElem?_getD, at_, Option.getD_some]
    simp [ih, period, endSequence, begun.plan_eq]

end StepContext

/-- Whatever the state and the clock: each turn of the loop stops the step, ends the loop or settles
a release that is due, none settles a release at or beyond the end of the step, and the loop ends
with its own last turn. -/
theorem dispatchLoop_terminates (plan : ActivePlan) (state : ActiveState ω ε)
    (input : StepInput ω ε) :
    Ensures (beginStep plan input.machine input.readings input.frame state)
      (fun (ctx, first) => (∀ s, ctx.TurnReached first s → Ensures (ctx.dispatchTurn s)
        (fun turn => ctx.Settles s turn.1 ∧ (turn.2 = true → ∃ index ∈ ctx.indices,
          ctx.isDue s index ∧ s.next index < turn.1.next index)) fun stop => ctx.Settles s stop.2) ∧
        ∀ fuel, first.summary.dueDomainReleases < fuel → ∃ last, ctx.TurnReached first last ∧
          (∀ t, ctx.dispatchTurn last ≠ .ok (t, true)) ∧
          ctx.dispatchLoop fuel first = (ctx.dispatchTurn last).map Prod.fst) fun _ => True := by
  cases begins : beginStep plan input.machine input.readings input.frame state with
  | error status => trivial
  | ok begun =>
    obtain ⟨ctx, first⟩ := begun
    refine ⟨fun s _ => ?_, fun fuel enough => ?_⟩
    · have settles := dispatchTurn_settles ctx s
      cases turn : ctx.dispatchTurn s with
      | error stop => exact settles.of_error turn
      | ok result =>
        refine ⟨settles.of_ok turn, fun goes => dispatchTurn_advances (t := result.1) ?_⟩
        rw [turn, ← goes]
    · exact dispatchLoop_ends fuel .first (by rwa [remaining_eq (beginStep_eq_ok begins)])

end RtRuntime
