import RtRuntime.PhaseLife

/-!
# The invariant of a run of the phase executor

Three counts tie the phases together: the pending count is the sum of what the parties hold, a
remaining indegree is the number of releases still to come, and a phase whose indegree is down to
zero has exactly one party that submits it or is its work item.
-/

namespace RtRuntime

open GraphRun PhaseSlot List

open Function (update update_self update_of_ne forall_update_iff)

section Invariant

variable {n : ℕ} {graph : PhaseGraph n} {results : Fin n → CallbackResult}

def GraphRun.SomeFailed (s : GraphRun n) : Prop := ∃ p, (s.phases p).Failed

/-- The invariant of a run, where `held` are the phases that are counted as pending but not pushed by
anybody else's account: those of a submission that is taken apart in a proof. -/
structure RunServes (graph : PhaseGraph n) (results : Fin n → CallbackResult) (held : List (Fin n))
    (s : GraphRun n) : Prop where
  slots : ∀ p, SlotServes (results p) (graph.successors p) (s.phases p)
  pending : s.pending = held.length + s.run.weight + ∑ p, (s.phases p).weight
  indegree : ∀ p, s.indegree p =
    ∑ q, ((s.phases q).finish.unreleased (graph.successors q)).count p
  submitted : ∀ p, held.count p + s.run.submits p + (s.phases p).item.submitted +
    ∑ q, (s.phases q).finish.submits p = if s.indegree p = 0 then 1 else 0
  cancelled : s.cancelled = true → s.SomeFailed
  skipped : ∀ p, (s.phases p).Skipped → s.SomeFailed
  withheld : ∀ p, (s.phases p).finish.Ended →
    (s.phases p).finish.unreleased (graph.successors p) ≠ [] → s.SomeFailed
  lowered : ∀ p, (s.phases p).Failed → (s.phases p).finish.Ended → s.failedPhase ≤ p
  observed : ∀ p o, (s.phases p).finish = .lowering o → s.failedPhase ≤ o
  reported : s.failedPhase = n ∨ ∃ p : Fin n, s.failedPhase = p ∧ (s.phases p).Failed

variable {s : GraphRun n} {held : List (Fin n)}

attribute [simp] FinishPc.weight FinishPc.unreleased FinishPc.submits FinishPc.Ended
  GraphRun.setPhase GraphRun.setFinish GraphRun.start

/-- The words that no decision depends on. -/
theorem RunServes.recount (h : RunServes graph results held s) (status : Status) (count : ℕ) :
    RunServes graph results held { s with groupStatus := status, callbacksExecuted := count } :=
  { h with }

variable {p : Fin n} {slot : PhaseSlot n}

theorem GraphRun.SomeFailed.update (h : s.SomeFailed) (kept : (s.phases p).Failed → slot.Failed) :
    (s.setPhase p slot).SomeFailed := by
  obtain ⟨q, failed⟩ := h
  by_cases same : q = p
  · subst same
    exact ⟨q, by simpa using kept failed⟩
  · exact ⟨q, by simpa [same] using failed⟩

theorem RunServes.weight_le (h : RunServes graph results held s) (p : Fin n) :
    (s.phases p).weight ≤ s.pending := by
  have one : (s.phases p).weight ≤ ∑ q, (s.phases q).weight :=
    Finset.single_le_sum (f := fun q => (s.phases q).weight) (fun _ _ => Nat.zero_le _)
      (Finset.mem_univ p)
  rw [h.pending]
  omega

/-- A phase goes on to another slot, by what that changes of the counts and words it shares. -/
theorem RunServes.change {held' : List (Fin n)} (h : RunServes graph results held s) (pending : ℕ)
    (indegree : Fin n → ℕ) (cancelled : Bool) (failedPhase : ℕ)
    (serves : SlotServes (results p) (graph.successors p) slot)
    (counted : pending + (s.phases p).weight + held.length =
      s.pending + slot.weight + held'.length)
    (released : ∀ q, indegree q + ((s.phases p).finish.unreleased (graph.successors p)).count q =
      s.indegree q + (slot.finish.unreleased (graph.successors p)).count q)
    (submits : ∀ q, held'.count q + slot.finish.submits q +
        (if q = p then slot.item.submitted else 0) + (if s.indegree q = 0 then 1 else 0) =
      held.count q + (s.phases p).finish.submits q +
        (if q = p then (s.phases p).item.submitted else 0) + if indegree q = 0 then 1 else 0)
    (failed : (s.phases p).Failed → slot.Failed)
    (cancels : cancelled = true → s.cancelled = true ∨ slot.Failed)
    (skipped : slot.Skipped → (s.phases p).Skipped ∨ s.cancelled = true)
    (withheld : slot.finish.Ended → slot.finish.unreleased (graph.successors p) ≠ [] →
      s.cancelled = true ∨ slot.Failed ∨ (s.phases p).finish.Ended ∧
        slot.finish.unreleased (graph.successors p) =
          (s.phases p).finish.unreleased (graph.successors p))
    (lowers : failedPhase ≤ s.failedPhase)
    (lowered : slot.Failed → slot.finish.Ended → failedPhase ≤ p)
    (observed : ∀ o, slot.finish = .lowering o → failedPhase ≤ o)
    (reported : failedPhase = s.failedPhase ∨ failedPhase = p ∧ slot.Failed) :
    RunServes graph results held'
      { s.setPhase p slot with
        pending := pending
        indegree := indegree
        cancelled := cancelled
        failedPhase := failedPhase } := by
  have kept (before : s.SomeFailed) : (s.setPhase p slot).SomeFailed := before.update failed
  have own (now : slot.Failed) : (s.setPhase p slot).SomeFailed := ⟨p, by simpa using now⟩
  constructor
  case slots =>
    exact (forall_update_iff s.phases fun q slot =>
      SlotServes (results q) (graph.successors q) slot).mpr ⟨serves, fun q _ => h.slots q⟩
  case pending =>
    have total := sum_update (fun _ slot => slot.weight) s.phases p slot
    have before := h.pending
    simp only [setPhase] at before ⊢
    omega
  case indegree =>
    intro q
    have total := sum_update
      (fun r slot => (slot.finish.unreleased (graph.successors r)).count q) s.phases p slot
    have before := h.indegree q
    have change := released q
    simp only [setPhase] at total ⊢
    omega
  case submitted =>
    intro q
    have total := sum_update (fun _ slot => slot.finish.submits q) s.phases p slot
    have before := h.submitted q
    have change := submits q
    have item : (update s.phases p slot q).item.submitted +
        (if q = p then (s.phases p).item.submitted else 0) =
        (s.phases q).item.submitted + if q = p then slot.item.submitted else 0 := by
      by_cases same : q = p
      · subst same
        simp [Nat.add_comm]
      · simp [same]
    simp only [setPhase] at total ⊢
    omega
  case cancelled => exact fun now => (cancels now).elim (fun old => kept (h.cancelled old)) own
  case skipped =>
    refine (forall_update_iff s.phases fun _ slot => slot.Skipped → _).mpr
      ⟨fun now => ?_, fun q _ before => kept (h.skipped q before)⟩
    exact kept ((skipped now).elim (h.skipped p) h.cancelled)
  case withheld =>
    refine (forall_update_iff s.phases fun q slot => slot.finish.Ended →
      slot.finish.unreleased (graph.successors q) ≠ [] → _).mpr
      ⟨fun ended rest => ?_, fun q _ ended rest => kept (h.withheld q ended rest)⟩
    rcases withheld ended rest with before | now | ⟨before, unchanged⟩
    · exact kept (h.cancelled before)
    · exact own now
    · exact kept (h.withheld p before (unchanged ▸ rest))
  case lowered =>
    exact (forall_update_iff s.phases fun q slot => slot.Failed → slot.finish.Ended →
      failedPhase ≤ q).mpr ⟨lowered, fun q _ bad ended => lowers.trans (h.lowered q bad ended)⟩
  case observed =>
    exact (forall_update_iff s.phases fun _ slot => ∀ o, slot.finish = .lowering o →
      failedPhase ≤ o).mpr ⟨observed, fun q _ o at_o => lowers.trans (h.observed q o at_o)⟩
  case reported =>
    rcases reported with same | ⟨here, now⟩
    · rcases h.reported with none | ⟨q, before, bad⟩
      · exact .inl (same.trans none)
      · refine .inr ⟨q, same.trans before, ?_⟩
        exact (forall_update_iff s.phases fun r slot => (s.phases r).Failed → slot.Failed).mpr
          ⟨failed, fun _ _ => id⟩ q bad
    · exact .inr ⟨p, here, by simpa using now⟩

/-- A step by which a phase does not touch the others keeps the invariant. -/
theorem RunServes.advance (h : RunServes graph results [] s) (pending : ℕ)
    (step : Advances (results p) (graph.successors p) s.cancelled (s.phases p) slot)
    (counted : pending + (s.phases p).weight = s.pending + slot.weight) :
    RunServes graph results [] { s.setPhase p slot with pending := pending } := by
  refine h.change pending s.indegree s.cancelled s.failedPhase step.serves counted
    (fun q => by rw [step.unreleased]) (fun q => by rw [step.submits, step.submitted]) step.failed
    .inl step.skipped (fun ended _ => .inr (.inr ⟨(step.ended ended).1, step.unreleased⟩)) le_rfl
    (fun failed ended => ?_) (fun o at_o => h.observed p o (step.observed o at_o)) (.inl rfl)
  obtain ⟨before, recorded⟩ := step.ended ended
  exact h.lowered p (by simpa [Failed, recorded] using failed) before

/-- A phase whose `finish_phase` is on its way has been finished with the status of its result. -/
theorem SlotServes.finishing_of {result : CallbackResult} {successors : List (Fin n)}
    (h : SlotServes result successors slot) (on : slot.finish ≠ .none) :
    slot.finished = [result.status] ∧ FinishServes successors result.status slot.finish ∧
      slot.weight = slot.item.weight + slot.finish.weight ∧
      ∀ finish, FinishServes successors result.status finish →
        SlotServes result successors { slot with finish := finish } ∧
        PhaseSlot.weight { slot with finish := finish } = slot.item.weight + finish.weight := by
  cases h with
  | finishing item status external finish at_item at_external serves =>
    refine ⟨rfl, serves, ?_, fun other serves' => ⟨.finishing _ _ _ _ at_item at_external serves', ?_⟩⟩
    all_goals rcases at_item with rfl | rfl <;> simp [PhaseSlot.weight, hold]
  | _ => exact absurd rfl on

/-- A step of `finish_phase`, by what it changes of the counts and words it shares. -/
theorem RunServes.finishMove (h : RunServes graph results [] s) (finish : FinishPc n)
    (held : List (Fin n)) (pending : ℕ) (indegree : Fin n → ℕ) (cancelled : Bool) (failedPhase : ℕ)
    (on : (s.phases p).finish ≠ .none)
    (serves : FinishServes (graph.successors p) (results p).status finish)
    (counted : pending + (s.phases p).finish.weight = s.pending + finish.weight + held.length)
    (released : ∀ q, indegree q + ((s.phases p).finish.unreleased (graph.successors p)).count q =
      s.indegree q + (finish.unreleased (graph.successors p)).count q)
    (submits : ∀ q, held.count q + finish.submits q + (if s.indegree q = 0 then 1 else 0) =
      (s.phases p).finish.submits q + if indegree q = 0 then 1 else 0)
    (cancels : cancelled = true → s.cancelled = true ∨ (s.phases p).Failed)
    (withheld : finish.Ended → finish.unreleased (graph.successors p) ≠ [] →
      s.cancelled = true ∨ (s.phases p).Failed ∨ (s.phases p).finish.Ended ∧
        finish.unreleased (graph.successors p) =
          (s.phases p).finish.unreleased (graph.successors p))
    (lowers : failedPhase ≤ s.failedPhase)
    (lowered : (s.phases p).Failed → finish.Ended → failedPhase ≤ p)
    (observed : ∀ o, finish = .lowering o → failedPhase ≤ o)
    (reported : failedPhase = s.failedPhase ∨ failedPhase = p ∧ (s.phases p).Failed) :
    RunServes graph results held
      { s.setFinish p finish with
        pending := pending
        indegree := indegree
        cancelled := cancelled
        failedPhase := failedPhase } := by
  obtain ⟨-, -, weight, after⟩ := (h.slots p).finishing_of on
  obtain ⟨serves', weight'⟩ := after finish serves
  refine h.change pending indegree cancelled failedPhase serves' ?_ released (fun q => ?_) id cancels
    .inl withheld lowers lowered observed reported
  · rw [weight, weight', length_nil]
    omega
  · have := submits q
    simp only [count_nil]
    omega

/-- A phase that is held is not submitted yet, and pushing it makes it a work item. -/
theorem RunServes.push (h : RunServes graph results (p :: held) s) :
    RunServes graph results held (s.push p) := by
  have absent : (s.phases p).item = .absent := by
    have one := h.submitted p
    rw [count_cons_self] at one
    cases item : (s.phases p).item with
    | absent => rfl
    | _ =>
      simp only [item, ItemPc.submitted] at one
      split at one <;> omega
  obtain ⟨status, at_start⟩ : ∃ status, s.phases p = ⟨.absent, .idle, status, .idle, .none, 0, []⟩ := by
    have serves := h.slots p
    generalize s.phases p = slot at serves absent ⊢
    cases serves with
    | unstarted item status at_item => exact ⟨status, by rw [← absent]⟩
    | skipped item status at_item | running item status external at_item
    | waiting item status completion external at_item
    | finishing item status external finish at_item =>
      rcases at_item with rfl | rfl <;> cases absent
    | ready item status at_item => rcases at_item with rfl | rfl | rfl <;> cases absent
  have pushed : s.push p = s.setPhase p ⟨.queued, .idle, status, .idle, .none, 0, []⟩ := by
    rw [GraphRun.push, at_start]
  rw [pushed]
  refine h.change s.pending s.indegree s.cancelled s.failedPhase (.unstarted _ _ (by simp)) ?_
    (fun q => by rw [at_start]) (fun q => ?_) ?_ .inl (by simp) (by simp) le_rfl (by simp) (by simp)
    (.inl rfl)
  · rw [at_start, length_cons]
    simp [ItemPc.weight]
    omega
  · rw [at_start]
    by_cases same : q = p
    · subst same
      rw [count_cons_self]
      simp [ItemPc.submitted]
    · simp [same, count_cons_of_ne (Ne.symm same)]
  · rw [at_start]
    exact id

section

variable (h : RunServes graph results [] s)
include h

/-- A step of `finish_phase` that changes only its own place and what it holds. -/
theorem RunServes.finishKeep (finish : FinishPc n)
    (held : List (Fin n)) (pending : ℕ) (on : (s.phases p).finish ≠ .none)
    (serves : FinishServes (graph.successors p) (results p).status finish)
    (counted : pending + (s.phases p).finish.weight = s.pending + finish.weight + held.length)
    (unreleased : finish.unreleased (graph.successors p) =
      (s.phases p).finish.unreleased (graph.successors p))
    (submits : ∀ q, held.count q + finish.submits q = (s.phases p).finish.submits q)
    (withheld : finish.Ended → finish.unreleased (graph.successors p) ≠ [] →
      s.cancelled = true ∨ (s.phases p).Failed ∨ (s.phases p).finish.Ended)
    (lowered : (s.phases p).Failed → finish.Ended → s.failedPhase ≤ p)
    (observed : ∀ o, finish = .lowering o → s.failedPhase ≤ o) :
    RunServes graph results held { s.setFinish p finish with pending := pending } := by
  refine h.finishMove finish held pending s.indegree s.cancelled s.failedPhase on serves counted
    (fun q => by rw [unreleased]) (fun q => ?_) .inl
    (fun ended rest => ?_) le_rfl lowered observed (.inl rfl)
  · rw [submits q]
  · rcases withheld ended rest with cancelled | failed | before
    · exact .inl cancelled
    · exact .inr (.inl failed)
    · exact .inr (.inr ⟨before, unreleased⟩)

theorem RunServes.stepFinish {s' : GraphRun n}
    (stepped : s.stepFinish graph p = some s') : RunServes graph results [] s' := by
  have on : (s.phases p).finish ≠ .none := by
    intro none
    simp [GraphRun.stepFinish, none] at stepped
  obtain ⟨finished, serves, -, -⟩ := (h.slots p).finishing_of on
  have failed_iff : (s.phases p).Failed ↔ (results p).status ≠ .ok := by
    simp [Failed, finished]
  have positive : 1 ≤ (s.phases p).finish.weight → 1 ≤ s.pending := by
    intro one
    have held := h.weight_le p
    rw [((h.slots p).finishing_of on).2.2.1] at held
    omega
  unfold GraphRun.stepFinish at stepped
  generalize place : (s.phases p).finish = finish at serves stepped
  cases finish with
  | none => exact absurd place on
  | done rest => cases stepped
  | recording status =>
    cases stepped
    refine (h.finishKeep .cancelling [] s.pending on serves.2
      ?_ ?_ ?_ ?_ ?_ ?_).recount _ s.callbacksExecuted <;>
      simp [place]
  | cancelling =>
    cases stepped
    refine h.finishMove .loading [] s.pending s.indegree true s.failedPhase on serves ?_ ?_ ?_
      (fun _ => .inr (failed_iff.mpr serves)) ?_ le_rfl ?_ ?_ (.inl rfl) <;>
      simp [place]
  | loading =>
    cases stepped
    refine h.finishKeep _ [] s.pending on serves ?_ ?_ ?_ ?_ ?_ ?_ <;>
      simp [place]
  | lowering o =>
    simp only at stepped
    have observed := h.observed p o place
    split at stepped
    next below =>
      cases stepped
      refine h.finishKeep _ [] s.pending on (fun _ => rfl) ?_ ?_ ?_
        (fun _ _ => .inr (.inl (failed_iff.mpr serves))) (fun _ _ => observed.trans below) ?_ <;>
        simp [place]
    next above =>
      split at stepped
      next same =>
        cases stepped
        refine h.finishMove (.dropping (graph.successors p)) [] s.pending s.indegree s.cancelled p
          on (fun _ => rfl) ?_ ?_ ?_ .inl (fun _ _ => .inr (.inl (failed_iff.mpr serves)))
          (by omega) (fun _ _ => le_rfl) ?_ (.inr ⟨rfl, failed_iff.mpr serves⟩) <;>
          simp [place]
      next changed =>
        cases stepped
        refine h.finishKeep _ [] s.pending on serves ?_ ?_ ?_ ?_ ?_ ?_ <;>
          simp [place]
  | checking =>
    have succeeded : ¬(s.phases p).Failed := fun failed => failed_iff.mp failed serves
    cases stepped
    cases cancelled : s.cancelled with
    | true =>
      refine h.finishKeep _ [] s.pending on (fun _ => rfl) ?_ ?_ ?_
        (fun _ _ => .inl cancelled) (fun failed => absurd failed succeeded) ?_ <;>
        simp [place]
    | false =>
      refine h.finishKeep _ [] s.pending on serves ?_ ?_ ?_ ?_ ?_ ?_ <;>
        simp [place]
  | releasing rest =>
    have succeeded : ¬(s.phases p).Failed := fun failed => failed_iff.mp failed serves
    cases rest with
    | nil =>
      cases stepped
      refine h.finishKeep _ [] s.pending on (fun bad => absurd serves bad)
        ?_ ?_ ?_ ?_ (fun failed => absurd failed succeeded) ?_ <;>
        simp [place]
    | cons q rest =>
      -- the release that is taken here is one of those the indegree counts
      have counted : 1 ≤ s.indegree q := by
        rw [h.indegree q]
        refine le_trans ?_ (Finset.single_le_sum
          (f := fun r => ((s.phases r).finish.unreleased (graph.successors r)).count q)
          (fun _ _ => Nat.zero_le _) (Finset.mem_univ p))
        simp [place]
      cases stepped
      refine h.finishMove (if s.indegree q = 1 then .counting q rest else .releasing rest) []
        s.pending _ s.cancelled s.failedPhase on ?_ ?_ (fun r => ?_) (fun r => ?_) .inl ?_ le_rfl
        (fun failed => absurd failed succeeded) ?_ (.inl rfl)
      · split_ifs <;> exact serves
      · split_ifs <;> simp [place]
      · by_cases same : r = q
        · subst same
          split_ifs <;> simp [place] <;> omega
        · split_ifs <;> simp [place, same, count_cons_of_ne (Ne.symm same)]
      · by_cases same : r = q
        · subst same
          rw [place, update_self]
          split_ifs <;> first | omega | simp
        · rw [place, update_of_ne same]
          by_cases last : s.indegree q = 1 <;> simp [last, Ne.symm same]
      · split_ifs <;> simp
      · split_ifs <;> simp
  | counting q rest =>
    cases stepped
    refine h.finishKeep (.pushing q rest) [] (s.pending + 1) on serves ?_ ?_ ?_ ?_ ?_ ?_ <;>
      simp [place]
  | pushing q rest =>
    cases stepped
    have moved : RunServes graph results [q] (s.setFinish p (.releasing rest)) := by
      refine h.finishKeep _ [q] s.pending on serves ?_ ?_ (fun r => ?_) ?_ ?_ ?_
      · simp [place]
      · simp [place]
      · by_cases same : q = r
        · simp [place, same]
        · simp [place, same, count_cons_of_ne same]
      all_goals simp
    exact moved.push
  | dropping rest =>
    cases stepped
    have one : 1 ≤ s.pending := positive (by rw [place]; exact le_rfl)
    refine h.finishKeep (.done rest) [] (s.pending - 1) on serves ?_ ?_ ?_
      (fun _ _ => .inr (.inr (by rw [place]; trivial)))
      (fun failed _ => h.lowered p failed (by rw [place]; trivial)) ?_
    · simp [place]
      omega
    all_goals simp [place]

theorem RunServes.submit {s' : GraphRun n}
    (stepped : s.act graph results .submit = some s') : RunServes graph results [] s' := by
  simp only [GraphRun.act] at stepped
  generalize place : s.run = run at stepped
  cases run with
  | submitting rest =>
    cases rest with
    | nil => cases stepped
    | cons p rest =>
      cases stepped
      refine { h with pending := ?_, submitted := fun q => ?_ }
      · have before := h.pending
        simp only [place, RunPc.weight] at before ⊢
        omega
      · rw [← h.submitted q, place]
        rfl
  | pushing p rest =>
    cases stepped
    have moved : RunServes graph results [p] { s with run := .submitting rest } := by
      refine { h with pending := ?_, submitted := fun q => ?_ }
      · have before := h.pending
        simp only [place, RunPc.weight, length_nil, length_singleton] at before ⊢
        omega
      · have before := h.submitted q
        rw [place] at before
        rw [← before]
        simp only [RunPc.submits, count_cons, count_nil]
        omega
    exact moved.push
  | returned failedPhase callbacks status => cases stepped

omit h in
theorem GraphRun.act_returnRun {s' : GraphRun n}
    (stepped : s.act graph results .returnRun = some s') :
    s.run = .submitting [] ∧ s.pending = 0 ∧
      s' = { s with run := .returned s.failedPhase s.callbacksExecuted s.groupStatus } := by
  simp only [GraphRun.act] at stepped
  split at stepped
  next place =>
    split at stepped
    next nothing =>
      cases stepped
      exact ⟨place, nothing, rfl⟩
    next => cases stepped
  next => cases stepped

theorem RunServes.act {s' : GraphRun n}
    {action : ExecutorAction n} (stepped : s.act graph results action = some s') :
    RunServes graph results [] s' := by
  cases action with
  | submit => exact h.submit stepped
  | item p =>
    simp only [GraphRun.act, Option.map_eq_some_iff] at stepped
    obtain ⟨effect, moved, rfl⟩ := stepped
    obtain ⟨expected, step, counted⟩ := (h.slots p).stepItem (h.weight_le p) moved
    rw [expected]
    exact (h.advance _ step counted).recount s.groupStatus _
  | external p =>
    cases result : results p with
    | returns status => simp [GraphRun.act, result] at stepped
    | pending completion =>
      simp only [GraphRun.act, result, Option.map_eq_some_iff] at stepped
      obtain ⟨slot, moved, rfl⟩ := stepped
      have serves := h.slots p
      rw [result] at serves
      obtain ⟨step, weight⟩ := serves.stepExternal s.cancelled moved
      exact h.advance s.pending (result ▸ step) (by rw [weight])
  | finish p => exact h.stepFinish stepped
  | returnRun =>
    obtain ⟨place, -, rfl⟩ := GraphRun.act_returnRun stepped
    refine { h with pending := ?_, submitted := fun q => ?_ }
    · rw [h.pending, place]
      rfl
    · rw [← h.submitted q, place]
      rfl

end

theorem RunServes.start : RunServes graph results [] (GraphRun.start graph) where
  slots := fun p => .unstarted _ _ (.inl rfl)
  pending := by
    simp [RunPc.weight, PhaseSlot.weight, hold, ItemPc.weight]
  indegree := fun p => rfl
  submitted := fun p => by
    have once : (finRange n).count p = 1 :=
      count_eq_one_of_mem (nodup_finRange n) (mem_finRange p)
    by_cases root : graph.indegree p = 0
    · simp [RunPc.submits, ItemPc.submitted, root, count_filter, once]
    · have not_listed : ((finRange n).filter (graph.indegree · = 0)).count p = 0 :=
        count_eq_zero_of_not_mem (by simp [root])
      simp [RunPc.submits, ItemPc.submitted, root, not_listed]
  cancelled := by simp
  skipped := by simp [Skipped]
  withheld := by simp
  lowered := by simp
  observed := by simp
  reported := .inl rfl

end Invariant

end RtRuntime
