import RtRuntime.JobQueueRuns

/-!
# What the queue of jobs promises

The contents of a queue are the values that have a place and have not been taken.  Every action of
a run leaves them, adds one at the end or takes the oldest; the rest says what the calls that have
returned may rely on, and what a failing call has seen.
-/

namespace RtRuntime

variable {ι τ α : Type*}

section Fifo

variable (s : QueueState ι τ α) (q : ι)

/-- The values that a producer has claimed a place for and no consumer has taken, oldest first. -/
def JobQueue.contents (queue : JobQueue α) : List α :=
  queue.history.claimed.drop queue.dequeuePos

/-- What a bounded queue promises about the calls that have returned: there are never more values
than cells; a pushed value is still in its cell, is being popped or was popped; no position is
popped twice, and what is popped at a position is what was pushed there. -/
structure HoldsValues : Prop where
  bounded : (s.queues q).contents.length ≤ (s.queues q).size
  kept : ∀ p v, (p, v) ∈ (s.queues q).history.pushed →
    ((s.queues q).dequeuePos ≤ p ∧ (s.queues q).contents[p - (s.queues q).dequeuePos]? = some v ∧
      (s.queues q).cell p = { sequence := p + 1, data := some v }) ∨
    (p < (s.queues q).dequeuePos ∧ ∃ t, (s.threads t).pc.reading = some (q, p)) ∨
    (p, some v) ∈ (s.queues q).history.popped
  once : ((s.queues q).history.popped.map Prod.fst).Nodup
  values : ∀ p out, (p, out) ∈ (s.queues q).history.popped →
    p < (s.queues q).dequeuePos ∧ ∃ v, out = some v ∧ (s.queues q).history.claimed[p]? = some v

/-- The contents change as those of a queue do: a value is added at the end, or the oldest value is
taken by a pop that goes on to return the value of that position. -/
def MovesInOrder (s' : QueueState ι τ α) : Prop :=
  (s'.queues q).contents = (s.queues q).contents ∨
  (∃ v, (s'.queues q).contents = (s.queues q).contents ++ [v]) ∨
  ∃ v t, (s.queues q).contents = v :: (s'.queues q).contents ∧
    (s'.threads t).pc = .popRead q (s.queues q).dequeuePos ∧
    (s'.queues q).history.claimed[(s.queues q).dequeuePos]? = some v

/-- The thread is about to find out that `try_push` fails: every place is taken, or a pop under way
still holds the cell whose turn it is. -/
def NoFreeCell : Prop :=
  (s.queues q).contents.length = (s.queues q).size ∨
  ∃ t p, (s.threads t).pc.reading = some (q, p) ∧ p + (s.queues q).size = (s.queues q).enqueuePos

/-- No push of the value at the head has returned. -/
def NoHead : Prop :=
  ∀ v, ((s.queues q).dequeuePos, v) ∉ (s.queues q).history.pushed

variable {s q}

variable {actions : List (QueueAction ι τ α)}

theorem QueuesServe.holdsValues (h : QueuesServe actions s) :
    HoldsValues s q := by
  obtain ⟨slot, cells, returns, -⟩ := h.cells q
  refine ⟨?_, fun p v member => ?_, returns.once, fun p out member => ?_⟩
  · rw [JobQueue.contents, List.length_drop, cells.claimed_length]
    rcases cells.ordered.lt_or_eq with nonempty | empty
    · have serves := cells.waiting _ le_rfl nonempty
      have low := cells.lower _ (cells.ring.index_lt (s.queues q).dequeuePos)
      omega
    · omega
  · obtain ⟨inside, value, shown⟩ := returns.pushed p v member
    rcases Nat.lt_or_ge p (s.queues q).dequeuePos with taken | waits
    · rcases h.taken q p taken with reading | gone
      · exact .inr (.inl ⟨taken, reading⟩)
      · exact .inr (.inr (value ▸ gone))
    · have serves := cells.waiting p waits inside
      have sequence := shown serves
      refine .inl ⟨waits, ?_, ?_⟩
      · rw [JobQueue.contents, List.getElem?_drop, Nat.add_sub_cancel' waits, value]
      · rcases cells.sequence _ (cells.ring.index_lt p) with free | ⟨-, -, w, data, claimed⟩
        · rw [JobQueue.cell] at sequence
          omega
        · rw [serves, value] at claimed
          rw [← sequence, Option.some.inj claimed, ← data]
          rfl
  · obtain ⟨taken, rfl, -⟩ := returns.popped p out member
    have bound := taken.trans_le cells.taken_le
    exact ⟨taken, _, List.getElem?_eq_getElem bound, List.getElem?_eq_getElem bound⟩

variable [DecidableEq ι] [DecidableEq τ] {s' : QueueState ι τ α}

theorem QueuesServe.noFreeCell (h : QueuesServe actions s) {t : τ} {v : α} {single spurious : Bool}
    {pos : ℕ} (pc : (s.threads t).pc = .pushCheck q v single pos)
    (stepped : s.act (.next t spurious) = some s') (failed : (s'.threads t).pc = .idle) :
    NoFreeCell s q := by
  obtain ⟨slot, cells, returns, pcs⟩ := h.cells q
  have bound := pcs t
  simp only [QueueState.act, QueueState.advance, pc, QueueState.checkPush] at stepped
  rw [pc] at bound
  split_ifs at stepped with inside same older
  · simp [← Option.some.inj stepped, QueueState.setPc] at failed
  · obtain ⟨rfl, lap⟩ := cells.lap_behind (bound rfl) older
    have inside := cells.ring.two_le
    have serves : slot ((s.queues q).index (slot ((s.queues q).index (s.queues q).enqueuePos))) =
        slot ((s.queues q).index (s.queues q).enqueuePos) := by
      congr 1
      rw [cells.ring.index_eq, cells.slot_index, cells.ring.index_eq]
    rcases Nat.lt_or_ge (slot ((s.queues q).index (s.queues q).enqueuePos))
      (s.queues q).dequeuePos with taken | waits
    · rcases h.taken q _ taken with ⟨t', reading⟩ | gone
      · exact .inr ⟨t', _, reading, lap⟩
      · exact absurd serves (returns.popped _ _ gone).2.2
    · left
      have most := (h.holdsValues (q := q)).bounded
      rw [JobQueue.contents, List.length_drop, cells.claimed_length] at most ⊢
      omega
  · simp [← Option.some.inj stepped, QueueState.setPc] at failed

theorem QueuesServe.noHead (h : QueuesServe actions s) {t : τ} {spurious : Bool} {pos : ℕ}
    (pc : (s.threads t).pc = .popCheck q pos) (stepped : s.act (.next t spurious) = some s')
    (failed : (s'.threads t).pc = .idle) :
    NoHead s q := by
  obtain ⟨slot, cells, returns, pcs⟩ := h.cells q
  have bound := pcs t
  simp only [QueueState.act, QueueState.advance, pc, QueueState.checkPop] at stepped
  rw [pc] at bound
  split_ifs at stepped with inside same older
  · simp [← Option.some.inj stepped, QueueState.setPc] at failed
  · obtain rfl := cells.head_unpublished (bound rfl) older
    intro v member
    obtain ⟨claimed, -, shown⟩ := returns.pushed _ v member
    have := shown (cells.waiting _ le_rfl claimed)
    omega
  · simp [← Option.some.inj stepped, QueueState.setPc] at failed

/-- The ways an action can change what a queue contains. -/
theorem QueueState.act_contents {a : QueueAction ι τ α} (stepped : s.act a = some s') (q : ι) :
    ((s'.queues q).history.claimed = (s.queues q).history.claimed ∧
      (s'.queues q).dequeuePos = (s.queues q).dequeuePos) ∨
    (∃ v, (s'.queues q).history.claimed = (s.queues q).history.claimed ++ [v] ∧
      (s'.queues q).dequeuePos = (s.queues q).dequeuePos) ∨
    ∃ t, (s.threads t).pc = .popClaim q (s.queues q).dequeuePos ∧
      (s'.threads t).pc = .popRead q (s.queues q).dequeuePos ∧
      (s'.queues q).history.claimed = (s.queues q).history.claimed ∧
      (s'.queues q).dequeuePos = (s.queues q).dequeuePos + 1 := by
  have still : ∀ {queue : JobQueue α} {n : ι} {t : τ} {thread : QueueThread ι α},
      queue.history.claimed = (s.queues n).history.claimed →
      queue.dequeuePos = (s.queues n).dequeuePos →
      (((s.setQueue n queue).setThread t thread).queues q).history.claimed =
        (s.queues q).history.claimed ∧
      (((s.setQueue n queue).setThread t thread).queues q).dequeuePos =
        (s.queues q).dequeuePos := by
    intro queue n t thread claimed taken
    by_cases same : q = n
    · subst same
      simp [claimed, taken]
    · simp [same]
  cases a with
  | push t n v single | pop t n =>
    simp only [QueueState.act] at stepped
    split at stepped
    · cases stepped
      exact .inl ⟨rfl, rfl⟩
    · simp at stepped
  | next t spurious =>
    simp only [QueueState.act, QueueState.advance] at stepped
    split at stepped
    next => simp at stepped
    next n v single pc =>
      cases stepped
      exact .inl ⟨rfl, rfl⟩
    next n v single pos pc =>
      simp only [QueueState.checkPush] at stepped
      split_ifs at stepped
      all_goals
        cases stepped
        exact .inl ⟨rfl, rfl⟩
    next n v single pos pc =>
      cases stepped
      simp only [QueueState.claimPush]
      split
      · by_cases same : q = n
        · subst same
          exact .inr (.inl ⟨v, by simp⟩)
        · exact .inl (by simp [same])
      · exact .inl ⟨rfl, rfl⟩
    next n v pos pc =>
      cases stepped
      exact .inl (still rfl rfl)
    next n v pos pc =>
      cases stepped
      exact .inl (still rfl rfl)
    next n pc =>
      cases stepped
      exact .inl ⟨rfl, rfl⟩
    next n pos pc =>
      simp only [QueueState.checkPop] at stepped
      split_ifs at stepped
      all_goals
        cases stepped
        exact .inl ⟨rfl, rfl⟩
    next n pos pc =>
      cases stepped
      simp only [QueueState.claimPop]
      split
      next wins =>
        obtain ⟨rfl, -⟩ := wins
        by_cases same : q = n
        · subst same
          exact .inr (.inr ⟨t, pc, by simp⟩)
        · exact .inl (by simp [same])
      next => exact .inl ⟨rfl, rfl⟩
    next n pos pc =>
      cases stepped
      exact .inl ⟨rfl, rfl⟩
    next n pos out pc =>
      cases stepped
      exact .inl (still rfl rfl)

theorem QueuesServe.movesInOrder (h : QueuesServe actions s) {a : QueueAction ι τ α}
    (stepped : s.act a = some s') : MovesInOrder s q s' := by
  obtain ⟨slot, cells, -, pcs⟩ := h.cells q
  simp only [MovesInOrder, JobQueue.contents]
  rcases QueueState.act_contents stepped q with ⟨claimed, taken⟩ | ⟨v, claimed, taken⟩ |
    ⟨t, before, after, claimed, taken⟩
  · exact .inl (by rw [claimed, taken])
  · exact .inr (.inl ⟨v, by rw [claimed, taken, List.drop_append_of_le_length cells.taken_le]⟩)
  · have relies := pcs t
    rw [before] at relies
    have nonempty := (cells.full (relies rfl).2).1
    rw [← cells.claimed_length] at nonempty
    refine .inr (.inr ⟨(s.queues q).history.claimed[(s.queues q).dequeuePos], t, ?_, after, ?_⟩)
    · rw [claimed, taken]
      exact List.drop_eq_getElem_cons nonempty
    · rw [claimed]
      exact List.getElem?_eq_getElem nonempty

/-- In every interleaving in which each thread keeps to one queue, every queue with at least two
cells is a bounded queue: whatever action comes next, the contents move in order, a failing push
finds no free cell and a failing pop finds no finished push at the head. -/
theorem run_boundedFifo {capacity : ι → UInt64} (servable : ∀ q, ServableCapacity (capacity q))
    {before : List (QueueAction ι τ α)} {a : QueueAction ι τ α}
    (usage : OneQueuePerThread (before ++ [a]))
    (reached : runActions QueueState.act (QueueState.start capacity) before = some s)
    (stepped : s.act a = some s') (q : ι) :
    HoldsValues s' q ∧ MovesInOrder s q s' ∧
    (∀ t v single pos spurious, a = .next t spurious →
      (s.threads t).pc = .pushCheck q v single pos → (s'.threads t).pc = .idle →
      NoFreeCell s q) ∧
    (∀ t pos spurious, a = .next t spurious →
      (s.threads t).pc = .popCheck q pos → (s'.threads t).pc = .idle → NoHead s q) := by
  have serves : QueuesServe (before ++ [a]) s := by
    refine runActions_invariant (I := QueuesServe (before ++ [a]))
      (fun _ _ _ h member stepped => h.act usage member stepped) (QueuesServe.start servable)
      (fun b member => List.mem_append_left _ member) reached
  have serves' : QueuesServe (before ++ [a]) s' :=
    serves.act usage (List.mem_append_right _ (List.mem_singleton.mpr rfl)) stepped
  refine ⟨serves'.holdsValues, serves.movesInOrder stepped, ?_, ?_⟩
  · rintro t v single pos spurious rfl pc failed
    exact serves.noFreeCell pc stepped failed
  · rintro t pos spurious rfl pc failed
    exact serves.noHead pc stepped failed

end Fifo

section Inputs

/-- The steps of a whole `try_push` that meets no obstacle, and of a whole `try_pop`. -/
def wholePush (t : Fin 3) (q : Bool) (v : Fin 3) : List (QueueAction Bool (Fin 3) (Fin 3)) :=
  .push t q v false :: List.replicate 5 (.next t false)

def wholePop (t : Fin 3) (q : Bool) : List (QueueAction Bool (Fin 3) (Fin 3)) :=
  .pop t q :: List.replicate 4 (.next t false)

/-- Two pushes, a pop that has taken the first value and not given its cell back, a whole pop by
another thread that first tries the same position, and a push up to its look at the cell. -/
def slowPop : List (QueueAction Bool (Fin 3) (Fin 3)) :=
  wholePush 0 true 1 ++ wholePush 0 true 2 ++ [.pop 1 true, .next 1 false, .next 1 false] ++
    .pop 2 true :: List.replicate 6 (.next 2 false) ++ [.push 0 true 0 false, .next 0 false]

theorem slowPop_boundedFifo :
    ∃ s s', runActions QueueState.act (QueueState.start fun _ => 2) slowPop = some s ∧
      s.act (.next 0 false) = some s' ∧ HoldsValues s' true ∧ MovesInOrder s true s' ∧
      (s'.threads 0).pc = .idle ∧ NoFreeCell s true := by
  obtain ⟨s, reached, next⟩ := Option.bind_eq_some_iff.mp (by decide +kernel :
    ((runActions QueueState.act (QueueState.start fun _ => 2) slowPop).bind fun s =>
      (s.act (.next 0 false)).map fun s' => ((s.threads 0).pc, (s'.threads 0).pc)) =
        some (.pushCheck true 0 false 2, .idle))
  obtain ⟨s', stepped, pcs⟩ := Option.map_eq_some_iff.mp next
  obtain ⟨pc, idle⟩ := Prod.mk.inj pcs
  have result := run_boundedFifo (fun _ => by decide) ⟨by decide, by decide⟩ reached stepped true
  exact ⟨s, s', reached, stepped, result.1, result.2.1, idle,
    result.2.2.1 0 0 false 2 false rfl pc idle⟩

/-- What can be seen of one queue after a run: its history and positions, the data of the first two
cells, and where the threads stand. -/
structure QueueView where
  history : QueueHistory (Fin 3)
  enqueuePos : ℕ
  dequeuePos : ℕ
  data : List (Option (Fin 3))
  pcs : List (QueuePc Bool (Fin 3))
  deriving DecidableEq

def QueueState.view (s : QueueState Bool (Fin 3) (Fin 3)) (q : Bool) : QueueView where
  history := (s.queues q).history
  enqueuePos := (s.queues q).enqueuePos
  dequeuePos := (s.queues q).dequeuePos
  data := [((s.queues q).cells 0).data, ((s.queues q).cells 1).data]
  pcs := [(s.threads 0).pc, (s.threads 1).pc, (s.threads 2).pc]

/-- Three runs in which a queue is not the bounded queue it should be.  With one cell the second
push overwrites the first value.  A thread that popped from one queue finds nothing in another
whose first push has returned.  And a push fails although no value waits in the queue and one pop
is under way, as that pop still holds the cell whose turn it is. -/
theorem queue_not_bounded :
    queueSize 1 = 1 ∧
    ((runActions QueueState.act (QueueState.start fun _ => 1)
        (wholePush 0 true 1 ++ wholePush 0 true 2)).map (·.view true)) =
      some
        { history := { claimed := [1, 2], pushed := [(0, 1), (1, 2)], popped := [] }
          enqueuePos := 2
          dequeuePos := 0
          data := [some 2, none]
          pcs := [.idle, .idle, .idle] } ∧
    queueSize 2 = 2 ∧
    ((runActions QueueState.act (QueueState.start fun _ => 2)
        (wholePush 0 true 1 ++ wholePop 0 true ++ wholePush 0 false 2 ++
          [.pop 0 false, .next 0 false])).map (·.view false)) =
      some
        { history := { claimed := [2], pushed := [(0, 2)], popped := [] }
          enqueuePos := 1
          dequeuePos := 0
          data := [some 2, none]
          pcs := [.idle, .idle, .idle] } ∧
    ((runActions QueueState.act (QueueState.start fun _ => 2)
        (slowPop ++ [.next 0 false])).map (·.view true)) =
      some
        { history := { claimed := [1, 2], pushed := [(0, 1), (1, 2)], popped := [(1, some 2)] }
          enqueuePos := 2
          dequeuePos := 2
          data := [some 1, some 2]
          pcs := [.idle, .popRead true 0, .idle] } := by
  refine ⟨?_, ?_, ?_, ?_, ?_⟩ <;> decide +kernel

end Inputs

end RtRuntime
