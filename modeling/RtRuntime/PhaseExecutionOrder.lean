import RtRuntime.PhaseExecutionRuns

/-!
# What a run of the phase executor does

Order, failure and completion in every interleaving, read off the invariant of a run.
-/

namespace RtRuntime

open Relation

section Results

variable {n : ℕ} {graph : PhaseGraph n} {results : Fin n → CallbackResult}

/-- A phase has to finish before the other. -/
def PhaseGraph.Precedes (graph : PhaseGraph n) (before after : Fin n) : Prop :=
  after ∈ graph.successors before

variable {successors : List (Fin n)} {result : CallbackResult} {slot : PhaseSlot n}

section

variable (h : SlotServes result successors slot)
include h

theorem SlotServes.started_le : slot.started ≤ 1 := by
  cases h <;> simp

theorem SlotServes.submitted_of_started (started : slot.started ≠ 0) : slot.item.submitted = 1 := by
  cases h with
  | unstarted | skipped => exact absurd rfl started
  | running item status external at_item | waiting item status completion external at_item
  | finishing item status external finish at_item => rcases at_item with rfl | rfl <;> rfl
  | ready item status at_item => rcases at_item with rfl | rfl | rfl <;> rfl

theorem SlotServes.of_unstarted (unstarted : slot.started = 0) :
    slot.finish = .none ∧ slot.finished = [] := by
  cases h with
  | finishing => cases unstarted
  | _ => exact ⟨rfl, rfl⟩

theorem SlotServes.finished_eq : slot.finished = [] ∨ slot.finished = [result.status] := by
  cases h with
  | finishing => exact .inr rfl
  | _ => exact .inl rfl

end

/-- A completion that has arrived is not lost: once its call and the work item are over, the phase
is finished. -/
theorem SlotServes.completed {completion : Status}
    (h : SlotServes (.pending completion) successors slot) (arrived : slot.external = .done)
    (left : slot.item = .leaving ∨ slot.item = .gone) :
    slot.finished = [completion] := by
  cases h with
  | unstarted => cases arrived
  | skipped => cases arrived
  | running item status external at_item at_external =>
    rcases at_item with rfl | rfl <;> simp at left
  | ready item status at_item => rcases at_item with rfl | rfl | rfl <;> simp at left
  | waiting item status c external at_item at_external => exact absurd arrived at_external
  | finishing => rfl

/-- Nothing is released by a phase that did not finish successfully. -/
theorem SlotServes.finished_of_released (h : SlotServes result successors slot)
    (released : slot.finish.unreleased successors ≠ successors) : slot.finished = [.ok] := by
  have on : slot.finish ≠ .none := by
    intro none
    rw [none] at released
    exact released rfl
  obtain ⟨finished, serves, -, -⟩ := h.finishing_of on
  rw [finished]
  cases place : slot.finish with
  | none => exact absurd place on
  | releasing rest | counting q rest | pushing q rest =>
    rw [place] at serves
    exact congrArg (fun status => [status]) serves
  | dropping rest | done rest =>
    rw [place] at serves released
    by_contra bad
    exact released (serves fun ok => bad (by rw [ok]))
  | recording | cancelling | loading | lowering | checking =>
    rw [place] at released
    exact absurd rfl released

theorem RunServes.prerequisites {s : GraphRun n} (h : RunServes graph results [] s) {p q : Fin n}
    (started : (s.phases p).started ≠ 0) (before : graph.Precedes q p) :
    (s.phases q).finished = [.ok] := by
  have submitted := h.submitted p
  rw [(h.slots p).submitted_of_started started] at submitted
  have none_left : s.indegree p = 0 := by
    by_contra left
    rw [if_neg left] at submitted
    omega
  rw [h.indegree p, Finset.sum_eq_zero_iff] at none_left
  have not_left := List.count_eq_zero.mp (none_left q (Finset.mem_univ q))
  refine (h.slots q).finished_of_released fun unreleased => not_left ?_
  rw [unreleased]
  exact before

theorem RunServes.dependents {s : GraphRun n} (h : RunServes graph results [] s) {p q : Fin n}
    (failed : (s.phases q).Failed) (reaches : TransGen graph.Precedes q p) :
    (s.phases p).started = 0 := by
  have unsuccessful : (s.phases q).finished ≠ [.ok] := by
    obtain ⟨status, bad, finished⟩ := failed
    rw [finished]
    simpa using bad
  induction reaches with
  | single edge =>
    by_contra started
    exact unsuccessful (h.prerequisites started edge)
  | tail _ edge unstarted =>
    by_contra started
    have finished := h.prerequisites started edge
    rw [((h.slots _).of_unstarted unstarted).2] at finished
    cases finished

/-- Where nothing is pending, a phase is untouched or at its end. -/
theorem SlotServes.at_rest (h : SlotServes result successors slot) (rest : slot.weight = 0) :
    slot.item = .absent ∨ slot.Skipped ∨
      slot.started = 1 ∧ slot.finished = [result.status] ∧ ∃ left, slot.finish = .done left := by
  cases h with
  | unstarted item status at_item =>
    rcases at_item with rfl | rfl | rfl | rfl
    · exact .inl rfl
    all_goals simp [ItemPc.weight] at rest
  | skipped item status at_item => exact .inr (.inl ⟨rfl, at_item⟩)
  | running item status external at_item =>
    rcases at_item with rfl | rfl <;> simp [ItemPc.weight] at rest
  | ready item status at_item =>
    rcases at_item with rfl | rfl | rfl <;> simp [ItemPc.weight] at rest
  | waiting item status completion external at_item =>
    rcases at_item with rfl | rfl <;>
      simp [ItemPc.weight] at rest
  | finishing item status external finish at_item at_external serves =>
    refine .inr (.inr ⟨rfl, rfl, ?_⟩)
    have idle : finish.weight = 0 := by
      rcases at_item with rfl | rfl <;> simp at rest
      · exact rest.2
      · exact rest.2
    cases finish with
    | done left => exact ⟨left, rfl⟩
    | none => exact serves.elim
    | _ => simp at idle

/-- The state in which `run` finds nothing pending. -/
theorem RunServes.returns {s : GraphRun n} (h : RunServes graph results [] s)
    (place : s.run = .submitting []) (nothing : s.pending = 0) :
    (∀ p, (s.phases p).started ≠ 0 → (s.phases p).finished = [(results p).status] ∧
      ∃ left, (s.phases p).finish = .done left) ∧
    (¬s.SomeFailed → ∀ p, (s.phases p).started = 1) := by
  have rest (p : Fin n) : (s.phases p).weight = 0 := by
    have held := h.weight_le p
    omega
  have ended (p : Fin n) (started : (s.phases p).started ≠ 0) :
      (s.phases p).finished = [(results p).status] ∧
        ∃ left, (s.phases p).finish = .done left := by
    rcases (h.slots p).at_rest (rest p) with absent | skipped | ⟨-, finished⟩
    · have submitted := (h.slots p).submitted_of_started started
      rw [absent] at submitted
      cases submitted
    · exact absurd skipped.1 started
    · exact finished
  refine ⟨ended, fun none_failed p => ?_⟩
  -- in the order of the graph: when all before `p` have been released, `p` was submitted
  induction p using graph.acyclic.induction with
  | _ p before =>
    have released (q : Fin n) :
        ((s.phases q).finish.unreleased (graph.successors q)).count p = 0 := by
      rw [List.count_eq_zero]
      intro left
      have started : (s.phases q).started ≠ 0 := by
        by_cases edge : graph.Precedes q p
        · rw [before q edge]
          exact one_ne_zero
        · intro unstarted
          have ok := (h.slots q).finished_of_released fun same => edge <| by
            rw [same] at left
            exact left
          rw [((h.slots q).of_unstarted unstarted).2] at ok
          cases ok
      obtain ⟨-, kept, at_end⟩ := ended q started
      refine none_failed (h.withheld q (by rw [at_end]; trivial) ?_)
      exact List.ne_nil_of_mem left
    have zero : s.indegree p = 0 := by
      rw [h.indegree p]
      exact Finset.sum_eq_zero fun q _ => released q
    have nobody : ∑ q, (s.phases q).finish.submits p = 0 := by
      refine Finset.sum_eq_zero fun q _ => ?_
      by_cases unstarted : (s.phases q).started = 0
      · rw [((h.slots q).of_unstarted unstarted).1]
        rfl
      · obtain ⟨-, rest, place⟩ := ended q unstarted
        rw [place]
        rfl
    have submitted := h.submitted p
    rw [zero, nobody, place] at submitted
    rcases (h.slots p).at_rest (rest p) with absent | skipped | ⟨started, -⟩
    · rw [absent] at submitted
      simp [RunPc.submits, ItemPc.submitted] at submitted
    · exact absurd (h.skipped p skipped) none_failed
    · exact started

/-- In every run of the executor over an acyclic phase graph: a callback is started at most once and
only after its prerequisites finished successfully, no direct or transitive dependent of a failed
phase is started, and a completion that has arrived finishes its phase, once and with its status.
When `run` comes back, every started phase has finished, all were executed unless one failed, and the
reported phase is the least one that failed. -/
theorem run_executes (graph : PhaseGraph n) (results : Fin n → CallbackResult)
    (actions : List (ExecutorAction n)) (s : GraphRun n)
    (ran : runActions (GraphRun.act graph results) (GraphRun.start graph) actions = some s) :
    (∀ p, (s.phases p).started ≤ 1) ∧
    (∀ p, (s.phases p).started ≠ 0 → ∀ q, graph.Precedes q p → (s.phases q).finished = [.ok]) ∧
    (∀ q, (s.phases q).Failed → ∀ p, TransGen graph.Precedes q p → (s.phases p).started = 0) ∧
    (∀ p completion, results p = .pending completion →
      ((s.phases p).finished = [] ∨ (s.phases p).finished = [completion]) ∧
      ((s.phases p).external = .done → (s.phases p).item = .leaving ∨ (s.phases p).item = .gone →
        (s.phases p).finished = [completion])) ∧
    (∀ s', s.act graph results .returnRun = some s' →
      s'.run = .returned s.failedPhase s.callbacksExecuted s.groupStatus ∧
      (∀ p, (s.phases p).started ≠ 0 → (s.phases p).finished = [(results p).status] ∧
        ∃ left, (s.phases p).finish = .done left) ∧
      ((∀ p, ¬(s.phases p).Failed) → s.failedPhase = n ∧ ∀ p, (s.phases p).started = 1) ∧
      ∀ q, (s.phases q).Failed → ∃ p : Fin n, s.failedPhase = p ∧ (s.phases p).Failed ∧
        ∀ r, (s.phases r).Failed → p ≤ r) := by
  have h : RunServes graph results [] s :=
    runActions_invariant (I := RunServes graph results [])
      (fun _ _ _ h (_ : True) stepped => h.act stepped) .start (fun _ _ => trivial) ran
  refine ⟨fun p => (h.slots p).started_le, fun p started q => h.prerequisites started,
    fun q failed p => h.dependents failed, fun p completion result => ?_, fun s' stepped => ?_⟩
  · have serves := h.slots p
    rw [result] at serves
    exact ⟨serves.finished_eq, serves.completed⟩
  · obtain ⟨place, nothing, rfl⟩ := GraphRun.act_returnRun stepped
    obtain ⟨ended, all⟩ := h.returns place nothing
    have lowered (r : Fin n) (failed : (s.phases r).Failed) : s.failedPhase ≤ r := by
      have started : (s.phases r).started ≠ 0 := by
        intro unstarted
        obtain ⟨status, -, finished⟩ := failed
        rw [((h.slots r).of_unstarted unstarted).2] at finished
        cases finished
      obtain ⟨-, left, at_end⟩ := ended r started
      exact h.lowered r failed (by rw [at_end]; trivial)
    refine ⟨rfl, ended, fun none_failed => ⟨?_, all ?_⟩, fun q failed => ?_⟩
    · rcases h.reported with none | ⟨p, -, failed⟩
      · exact none
      · exact absurd failed (none_failed p)
    · rintro ⟨p, failed⟩
      exact none_failed p failed
    · rcases h.reported with none | ⟨p, reported, own⟩
      · have below := lowered q failed
        have bound := q.isLt
        omega
      · refine ⟨p, reported, own, fun r other => ?_⟩
        have below := lowered r other
        rw [reported] at below
        exact below

/-- Two phases, the second after the first. -/
def chainGraph : PhaseGraph 2 where
  successors := fun p => if p = 0 then [1] else []
  acyclic := by
    refine Subrelation.wf (r := InvImage (· < ·) Fin.val) ?_ (InvImage.wf Fin.val wellFounded_lt)
    intro before after edge
    split at edge
    next first => simp_all [InvImage]
    next => cases edge

/-- The first phase is completed by a device while its callback returns, the second fails. -/
def chainResults : Fin 2 → CallbackResult := fun p =>
  if p = 0 then .pending .ok else .returns .callbackFailed

/-- The completion sees the first phase dispatching, then the callback leaves it pending. -/
def raceActions : List (ExecutorAction 2) :=
  [.submit, .submit, .item 0, .item 0, .item 0, .external 0, .external 0, .item 0, .item 0,
    .external 0, .external 0, .finish 0, .finish 0, .finish 0, .finish 0, .finish 0, .finish 0,
    .item 0, .item 1, .item 1, .item 1, .item 1, .item 1, .finish 1, .finish 1, .finish 1,
    .finish 1, .finish 1, .item 1]

theorem race_executes :
    ∃ s, runActions (GraphRun.act chainGraph chainResults) (GraphRun.start chainGraph)
        raceActions = some s ∧
      (s.phases 0).finished = [.ok] ∧ (s.phases 1).finished = [.callbackFailed] ∧
      ∃ s', s.act chainGraph chainResults .returnRun = some s' ∧
        s'.run = .returned s.failedPhase s.callbacksExecuted s.groupStatus := by
  obtain ⟨s, ran, returns⟩ := Option.bind_eq_some_iff.mp (by decide +kernel :
    ((runActions (GraphRun.act chainGraph chainResults) (GraphRun.start chainGraph)
      raceActions).bind fun s => (s.act chainGraph chainResults .returnRun).map fun _ =>
        ((s.phases 0).started, (s.phases 1).started)) = some (1, 1))
  obtain ⟨s', stepped, started⟩ := Option.map_eq_some_iff.mp returns
  simp only [Prod.mk.injEq] at started
  obtain ⟨back, ended, -⟩ :=
    (run_executes chainGraph chainResults raceActions s ran).2.2.2.2 s' stepped
  exact ⟨s, ran, (ended 0 (by simp [started])).1, (ended 1 (by simp [started])).1, s', stepped, back⟩

theorem PhaseSlot.stepItem_eq_none {cancelled : Bool} {pending : ℕ} :
    slot.stepItem result cancelled pending = none ↔ slot.item.weight = 0 := by
  unfold stepItem
  grind [ItemPc.weight]

theorem GraphRun.stepFinish_eq_none {s : GraphRun n} {p : Fin n} :
    s.stepFinish graph p = none ↔ (s.phases p).finish.weight = 0 := by
  unfold stepFinish
  grind [FinishPc.weight]

/-- A phase holds nothing of the pending count exactly if none of its parties can move: one that
waits for its completion can be completed. -/
theorem RunServes.weight_eq_zero {s : GraphRun n} (h : RunServes graph results [] s) (p : Fin n) :
    (s.phases p).weight = 0 ↔ s.act graph results (.item p) = none ∧
      s.act graph results (.finish p) = none ∧ s.act graph results (.external p) = none := by
  have serves := h.slots p
  simp only [GraphRun.act, Option.map_eq_none_iff, PhaseSlot.stepItem_eq_none,
    GraphRun.stepFinish_eq_none]
  generalize s.phases p = slot at serves
  cases serves with
  | waiting item status completion external at_item =>
    rcases at_item with rfl | rfl <;> cases external <;> simp_all [PhaseSlot.stepExternal]
  | finishing item status external finish at_item at_external =>
    rcases at_item with rfl | rfl <;> rcases at_external with rfl | ⟨-, other⟩ <;>
      cases result : results p <;> simp_all [PhaseSlot.stepExternal]
  | unstarted item status at_item | skipped item status at_item
  | running item status external at_item | ready item status at_item =>
    cases item <;> cases result : results p <;> simp_all [ItemPc.weight, PhaseSlot.stepExternal]

/-- In every run of the executor somebody can move until `run` has come back, and then nobody touches
the words of the graph any more. -/
theorem run_comes_back {actions : List (ExecutorAction n)} {s : GraphRun n}
    (ran : runActions (GraphRun.act graph results) (GraphRun.start graph) actions = some s) :
    ((∃ failed callbacks status, s.run = .returned failed callbacks status) ∨
      ∃ action, s.act graph results action ≠ none) ∧
    ∀ s', s.act graph results .returnRun = some s' →
      ∀ action, s'.act graph results action = none := by
  have h : RunServes graph results [] s :=
    runActions_invariant (I := RunServes graph results [])
      (fun _ _ _ h (_ : True) stepped => h.act stepped) .start (fun _ _ => trivial) ran
  constructor
  · by_contra! stuck
    obtain ⟨not_back, stuck⟩ := stuck
    have rest (p : Fin n) := (h.weight_eq_zero p).mpr ⟨stuck _, stuck _, stuck _⟩
    have submit := stuck .submit
    have returns := stuck .returnRun
    have pending := h.pending
    cases place : s.run with
    | returned failed callbacks status => exact not_back _ _ _ place
    | pushing p rest => simp [GraphRun.act, place] at submit
    | submitting rest => cases rest <;> simp_all [GraphRun.act, RunPc.weight]
  · intro s' stepped action
    have stays := h.act stepped
    obtain ⟨-, nothing, rfl⟩ := GraphRun.act_returnRun stepped
    have rest (p : Fin n) := (stays.weight_eq_zero p).mp (Nat.le_zero.mp (nothing ▸ h.weight_le p))
    cases action with
    | submit | returnRun => rfl
    | item p => exact (rest p).1
    | finish p => exact (rest p).2.1
    | external p => exact (rest p).2.2

theorem race_comes_back :
    ∃ s s', runActions (GraphRun.act chainGraph chainResults) (GraphRun.start chainGraph)
        raceActions = some s ∧ s.act chainGraph chainResults .returnRun = some s' ∧
      ∀ action, s'.act chainGraph chainResults action = none := by
  obtain ⟨s, ran, returns⟩ := Option.bind_eq_some_iff.mp (by decide +kernel :
    ((runActions (GraphRun.act chainGraph chainResults) (GraphRun.start chainGraph)
      raceActions).bind fun s => (s.act chainGraph chainResults .returnRun).map fun _ => ()) =
        some ())
  obtain ⟨s', stepped, -⟩ := Option.map_eq_some_iff.mp returns
  exact ⟨s, s', ran, stepped, (run_comes_back ran).2 s' stepped⟩

end Results

end RtRuntime
