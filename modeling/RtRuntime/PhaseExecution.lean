import RtRuntime.Basic
import RtRuntime.Interleaving

/-!
# One run of the phase executor

`Executor::run` submits the phases without prerequisites and waits.  Every submitted phase is a work
item that some thread takes up; its callback finishes at once or leaves the phase pending for an
external completion, and whoever finalizes the phase goes on to release its successors.

A party moves by one access to shared memory at a time.  Each phase has its own work item and its
own `finish_phase` here, whichever worker, host job or completing thread runs them, which allows
every schedule of every executor policy.  No submission is rejected.
-/

namespace RtRuntime

section Parties

/-- A compiled phase graph: the successor lists, without a cycle. -/
structure PhaseGraph (n : ℕ) where
  successors : Fin n → List (Fin n)
  acyclic : WellFounded fun before after => after ∈ successors before

/-- `initial_indegree_`. -/
def PhaseGraph.indegree {n : ℕ} (graph : PhaseGraph n) (p : Fin n) : ℕ :=
  ∑ q, (graph.successors q).count p

/-- What a phase callback does: it returns a status (or throws, which is `callback_failed`), or it
returns pending and `complete_external` is called once with the given status.  A dispatch that is
pending with a failing status is treated by the executor as one that returned that status. -/
inductive CallbackResult
  | returns (status : Status)
  | pending (completion : Status)

def CallbackResult.status : CallbackResult → Status
  | .returns status => status
  | .pending completion => completion

/-- The word in `phase_states_`. -/
inductive PhaseState
  | idle
  | dispatching
  | pending
  | externalReady
  | finalized
  deriving DecidableEq, Repr

/-- Where the work item of a phase stands in `execute` and `execute_phase`. -/
inductive ItemPc
  | absent
  | queued
  | checked
  | entered
  | running
  | returned
  | sawExternalReady
  | leaving
  | gone
  deriving DecidableEq, Repr

/-- Where the external completion of a phase stands in `complete_external`. -/
inductive ExternalPc
  | idle
  | stored
  | sawDispatching
  | sawPending
  | done
  deriving DecidableEq, Repr

/-- Where `finish_phase` stands.  At its end it remembers the successors that it did not release. -/
inductive FinishPc (n : ℕ)
  | none
  | recording (status : Status)
  | cancelling
  | loading
  | lowering (observed : ℕ)
  | checking
  | releasing (rest : List (Fin n))
  | counting (successor : Fin n) (rest : List (Fin n))
  | pushing (successor : Fin n) (rest : List (Fin n))
  | dropping (rest : List (Fin n))
  | done (rest : List (Fin n))

/-- `finish_phase` when it is entered. -/
def FinishPc.enter {n : ℕ} (status : Status) : FinishPc n :=
  if status = .ok then .checking else .recording status

/-- The words of one phase and the parties that work on it.  How often its callback was started and
with which statuses it was finished is kept for the statements. -/
structure PhaseSlot (n : ℕ) where
  item : ItemPc := .absent
  state : PhaseState := .idle
  status : Status := .ok
  external : ExternalPc := .idle
  finish : FinishPc n := .none
  started : ℕ := 0
  finished : List Status := []

/-- Where `run` stands: submitting phases without prerequisites (then waiting), or back. -/
inductive RunPc (n : ℕ)
  | submitting (rest : List (Fin n))
  | pushing (phase : Fin n) (rest : List (Fin n))
  | returned (failedPhase callbacksExecuted : ℕ) (status : Status)

structure GraphRun (n : ℕ) where
  phases : Fin n → PhaseSlot n
  indegree : Fin n → ℕ
  pending : ℕ
  cancelled : Bool
  failedPhase : ℕ
  groupStatus : Status
  callbacksExecuted : ℕ
  run : RunPc n

inductive ExecutorAction (n : ℕ)
  | submit
  | item (p : Fin n)
  | external (p : Fin n)
  | finish (p : Fin n)
  | returnRun

end Parties

section Steps

variable {n : ℕ}

/-- The state in which `run` begins to submit. -/
def GraphRun.start (graph : PhaseGraph n) : GraphRun n where
  phases := fun _ => {}
  indegree := graph.indegree
  pending := 0
  cancelled := false
  failedPhase := n
  groupStatus := .ok
  callbacksExecuted := 0
  run := .submitting ((List.finRange n).filter (graph.indegree · = 0))

/-- The phase is finalized and `finish_phase` is called with `status`. -/
def PhaseSlot.finalize (status : Status) (slot : PhaseSlot n) : PhaseSlot n :=
  { slot with
    state := .finalized
    finish := .enter status
    finished := slot.finished ++ [status] }

/-- What a step of a work item leaves: its phase, the pending count, and whether it found a state
that makes it cancel the graph with `internal_error`. -/
structure ItemEffect (n : ℕ) where
  slot : PhaseSlot n
  pending : ℕ
  broken : Bool := false

/-- The next access of the work item. -/
def PhaseSlot.stepItem (result : CallbackResult) (cancelled : Bool) (pending : ℕ)
    (slot : PhaseSlot n) : Option (ItemEffect n) :=
  match slot.item with
  | .absent | .gone => none
  | .queued => some ⟨{ slot with item := if cancelled then .leaving else .checked }, pending, false⟩
  | .checked => some ⟨{ slot with item := .entered }, pending + 1, false⟩
  | .entered =>
    if slot.state = .idle then
      some ⟨{ slot with state := .dispatching, item := .running, started := slot.started + 1 },
        pending, false⟩
    else some ⟨{ slot with item := .leaving }, pending - 1, true⟩
  | .running => some ⟨{ slot with item := .returned }, pending, false⟩
  | .returned =>
    match result with
    | .returns status =>
      if slot.state = .dispatching then
        some ⟨{ slot.finalize status with item := .leaving }, pending, false⟩
      else some ⟨{ slot with item := .leaving }, pending - 1, true⟩
    | .pending _ =>
      if slot.state = .dispatching then
        some ⟨{ slot with state := .pending, item := .leaving }, pending, false⟩
      else if slot.state = .externalReady then
        some ⟨{ slot with item := .sawExternalReady }, pending, false⟩
      else some ⟨{ slot with item := .leaving }, pending - 1, true⟩
  | .sawExternalReady =>
    if slot.state = .externalReady then
      some ⟨{ slot.finalize slot.status with item := .leaving }, pending, false⟩
    else some ⟨{ slot with item := .leaving }, pending - 1, true⟩
  | .leaving => some ⟨{ slot with item := .gone }, pending - 1, false⟩

/-- The next access of `complete_external`, which may be called as soon as the callback runs. -/
def PhaseSlot.stepExternal (completion : Status) (slot : PhaseSlot n) : Option (PhaseSlot n) :=
  match slot.external with
  | .idle =>
    if slot.started = 0 then none
    else some { slot with status := completion, external := .stored }
  | .stored =>
    if slot.state = .pending then some { slot.finalize completion with external := .done }
    else if slot.state = .dispatching then some { slot with external := .sawDispatching }
    else some { slot with external := .done }
  | .sawDispatching =>
    if slot.state = .dispatching then
      some { slot with state := .externalReady, external := .done }
    else if slot.state = .pending then some { slot with external := .sawPending }
    else some { slot with external := .done }
  | .sawPending =>
    if slot.state = .pending then some { slot.finalize completion with external := .done }
    else some { slot with external := .done }
  | .done => none

/-- `cancel_graph`. -/
def GraphRun.cancelGraph (s : GraphRun n) (status : Status) (p : Fin n) : GraphRun n :=
  { s with
    groupStatus := if s.groupStatus = .ok then status else s.groupStatus
    cancelled := true
    failedPhase := min s.failedPhase p }

def GraphRun.setPhase (s : GraphRun n) (p : Fin n) (slot : PhaseSlot n) : GraphRun n :=
  { s with phases := Function.update s.phases p slot }

def GraphRun.setFinish (s : GraphRun n) (p : Fin n) (finish : FinishPc n) : GraphRun n :=
  s.setPhase p { s.phases p with finish := finish }

/-- The work item of a phase becomes visible to the workers. -/
def GraphRun.push (s : GraphRun n) (p : Fin n) : GraphRun n :=
  s.setPhase p { s.phases p with item := .queued }

/-- The next access of `finish_phase`. -/
def GraphRun.stepFinish (graph : PhaseGraph n) (s : GraphRun n) (p : Fin n) :
    Option (GraphRun n) :=
  match (s.phases p).finish with
  | .none | .done _ => none
  | .recording status =>
    some { s.setFinish p .cancelling with
      groupStatus := if s.groupStatus = .ok then status else s.groupStatus }
  | .cancelling => some { s.setFinish p .loading with cancelled := true }
  | .loading => some (s.setFinish p (.lowering s.failedPhase))
  | .lowering observed =>
    -- the loop of `compare_exchange_weak`, which lowers the word to the least failed phase
    if observed ≤ p then some (s.setFinish p (.dropping (graph.successors p)))
    else if s.failedPhase = observed then
      some { s.setFinish p (.dropping (graph.successors p)) with failedPhase := p }
    else some (s.setFinish p (.lowering s.failedPhase))
  | .checking =>
    some (s.setFinish p
      (if s.cancelled then .dropping (graph.successors p) else .releasing (graph.successors p)))
  | .releasing [] => some (s.setFinish p (.dropping []))
  | .releasing (successor :: rest) =>
    some { s.setFinish p
        (if s.indegree successor = 1 then .counting successor rest else .releasing rest) with
      indegree := Function.update s.indegree successor (s.indegree successor - 1) }
  | .counting successor rest =>
    some { s.setFinish p (.pushing successor rest) with pending := s.pending + 1 }
  | .pushing successor rest => some ((s.setFinish p (.releasing rest)).push successor)
  | .dropping rest => some { s.setFinish p (.done rest) with pending := s.pending - 1 }

/-- One access to shared memory. -/
def GraphRun.act (graph : PhaseGraph n) (results : Fin n → CallbackResult) (s : GraphRun n) :
    ExecutorAction n → Option (GraphRun n)
  | .submit =>
    match s.run with
    | .submitting (p :: rest) => some { s with pending := s.pending + 1, run := .pushing p rest }
    | .pushing p rest => some { s.push p with run := .submitting rest }
    | _ => none
  | .item p =>
    (((s.phases p).stepItem (results p) s.cancelled s.pending)).map fun effect =>
      let s' := { s.setPhase p effect.slot with
        pending := effect.pending
        callbacksExecuted :=
          s.callbacksExecuted + if (s.phases p).item = .running then 1 else 0 }
      if effect.broken then s'.cancelGraph .internalError p else s'
  | .external p =>
    match results p with
    | .returns _ => none
    | .pending completion => ((s.phases p).stepExternal completion).map (s.setPhase p)
  | .finish p => s.stepFinish graph p
  | .returnRun =>
    -- the wait saw that nothing is pending, so nobody changes the words read after it
    match s.run with
    | .submitting [] =>
      if s.pending = 0 then
        some { s with run := .returned s.failedPhase s.callbacksExecuted s.groupStatus }
      else none
    | _ => none

end Steps

end RtRuntime
