import RtRuntime.JobQueueOrder

/-!
# The executor's queue of tasks

`Executor::Queue` hands the cells of a ring on as the queue of jobs does.  It keeps no positions for
its threads, so that every call begins with a load, and a call gives up after a bounded number of
attempts.  Here the calls run on the ring of the queue of jobs, with the attempts counted beside it.

The positions and the sequence numbers of the ring stand for machine words, and a call only ever sees
the words: the signed difference of two of them, and whether they are equal.  A call that does not
sleep through `2 ^ 62` operations of the others sees what it would see of the numbers themselves, so
that the positions may pass `2 ^ 64` any number of times.
-/

namespace RtRuntime

open QueuePc

open Function (update update_self update_of_ne)

variable {ι τ α : Type*}

section Model

/-- `kQueueCasAttemptLimit`. -/
def queueCasAttemptLimit : ℕ := 64

structure ExecutorQueue (τ α : Type*) where
  ring : QueueState Unit τ α
  /-- How many attempts the call at hand has lost. -/
  attempts : τ → ℕ

def ExecutorQueue.create (capacity : ℕ) : ExecutorQueue τ α where
  ring :=
    { queues _ :=
        { size := capacity
          cells i := { sequence := i, data := none }
          enqueuePos := 0
          dequeuePos := 0
          history := { claimed := [], pushed := [], popped := [] } }
      threads _ := { pc := .idle, enqueueCache := 0, dequeueCache := 0 } }
  attempts _ := 0

/-- `difference`: two machine words are subtracted and the result is read as a signed number. -/
def wordDifference (a b : ℕ) : ℤ := Int.bmod (a - b) (2 ^ 64)

/-- The next access of a call, which sees the numbers of the ring as words. -/
def QueueState.advanceWord [DecidableEq τ] (s : QueueState Unit τ α) (t : τ) (spurious : Bool) :
    Option (QueueState Unit τ α) :=
  match (s.threads t).pc with
  | .pushCheck q v single pos =>
    let difference := wordDifference ((s.queues q).cell pos).sequence pos
    some (if difference = 0 then s.setPc t (.pushClaim q v single pos)
      else if difference < 0 then s.setThread t { s.threads t with pc := .idle, enqueueCache := pos }
      else s.setPc t (.pushReload q v single))
  | .pushClaim q v single pos =>
    let queue := s.queues q
    some (if wordDifference queue.enqueuePos pos = 0 ∧ ¬spurious then
      (s.setQueue q
        { queue with
          enqueuePos := pos + 1
          history := { queue.history with claimed := queue.history.claimed ++ [v] } }).setThread t
        { s.threads t with pc := .pushWrite q v pos, enqueueCache := pos + 1 }
      else s.setPc t (.pushCheck q v single queue.enqueuePos))
  | .popCheck q pos =>
    let difference := wordDifference ((s.queues q).cell pos).sequence (pos + 1)
    some (if difference = 0 then s.setPc t (.popClaim q pos)
      else if difference < 0 then s.setThread t { s.threads t with pc := .idle, dequeueCache := pos }
      else s.setPc t (.popReload q))
  | .popClaim q pos =>
    let queue := s.queues q
    some (if wordDifference queue.dequeuePos pos = 0 ∧ ¬spurious then
      (s.setQueue q { queue with dequeuePos := pos + 1 }).setThread t
        { s.threads t with pc := .popRead q pos, dequeueCache := pos + 1 }
      else s.setPc t (.popCheck q queue.dequeuePos))
  | _ => s.advance t spurious

inductive TaskAction (τ α : Type*)
  | tryPush (t : τ) (item : α)
  | tryPop (t : τ)
  | next (t : τ) (spurious : Bool)
  deriving DecidableEq, Repr

/-- An attempt that has neither returned nor taken a position. -/
def QueuePc.loses : QueuePc ι α → QueuePc ι α → Bool
  | .pushCheck .., .pushReload .. | .pushClaim .., .pushCheck .. => true
  | .popCheck .., .popReload .. | .popClaim .., .popCheck .. => true
  | _, _ => false

/-- An attempt begins here. -/
def QueuePc.tries : QueuePc ι α → Bool
  | .pushCheck .. | .popCheck .. => true
  | _ => false

variable [DecidableEq τ]

/-- A call begins; what it does first is to load its position. -/
def ExecutorQueue.call (s : ExecutorQueue τ α) (t : τ) (pc : QueuePc Unit α) :
    Option (ExecutorQueue τ α) :=
  match (s.ring.threads t).pc with
  | .idle => some { ring := s.ring.setPc t pc, attempts := Function.update s.attempts t 0 }
  | _ => none

/-- The next access of a call; one that would begin another attempt may have had its last. -/
def ExecutorQueue.next (s : ExecutorQueue τ α) (t : τ) (spurious : Bool) :
    Option (ExecutorQueue τ α) :=
  (s.ring.advanceWord t spurious).map fun ring =>
    let lost := s.attempts t +
      if (s.ring.threads t).pc.loses (ring.threads t).pc then 1 else 0
    { ring :=
        if (ring.threads t).pc.tries ∧ queueCasAttemptLimit ≤ lost then ring.setPc t .idle
        else ring
      attempts := Function.update s.attempts t lost }

def ExecutorQueue.act (s : ExecutorQueue τ α) : TaskAction τ α → Option (ExecutorQueue τ α)
  | .tryPush t item => s.call t (.pushReload () item false)
  | .tryPop t => s.call t (.popReload ())
  | .next t spurious => s.next t spurious

end Model

section Words

/-- How many positions others have taken since the call loaded its own. -/
def QueuePc.behind (q : JobQueue α) : QueuePc ι α → ℕ
  | .pushCheck _ _ _ pos | .pushClaim _ _ _ pos => q.enqueuePos - pos
  | .popCheck _ pos | .popClaim _ pos => q.dequeuePos - pos
  | _ => 0

/-- The call that goes on has not slept. -/
def ExecutorQueue.Prompt (s : ExecutorQueue τ α) : TaskAction τ α → Prop
  | .next t _ => (s.ring.threads t).pc.behind (s.ring.queues ()) < 2 ^ 62
  | _ => True

theorem wordDifference_eq {a b : ℕ} (low : b ≤ a + 2 ^ 63) (high : a < b + 2 ^ 63) :
    wordDifference a b = a - b :=
  Int.bmod_eq_of_le (by omega) (by omega)

variable [DecidableEq τ] {r : QueueState Unit τ α} {t : τ} {spurious : Bool}
  {actions : List (QueueAction Unit τ α)}

/-- A call that has not slept sees of the words what it would see of the numbers. -/
theorem QueuesServe.advanceWord_eq (h : QueuesServe actions r)
    (unflagged : ∀ v, .push t () v true ∉ actions) (small : (r.queues ()).size ≤ 2 ^ 61)
    (prompt : (r.threads t).pc.behind (r.queues ()) < 2 ^ 62) :
    r.advanceWord t spurious = r.advance t spurious := by
  obtain ⟨slot, cells, -, pcs⟩ := h.cells ()
  have bound := pcs t
  have asked := h.asked t
  have ordered := cells.ordered
  have room := (h.holdsValues (q := ())).bounded
  rw [JobQueue.contents, List.length_drop, cells.claimed_length] at room
  have near (pos : ℕ) : (r.queues ()).enqueuePos ≤ ((r.queues ()).cell pos).sequence +
        (r.queues ()).size ∧
      ((r.queues ()).cell pos).sequence ≤ (r.queues ()).enqueuePos + (r.queues ()).size := by
    have inside := cells.ring.index_lt pos
    have low := cells.lower _ inside
    have high := cells.upper _ inside
    rw [JobQueue.cell]
    rcases cells.sequence _ inside with same | ⟨more, -⟩ <;> omega
  simp only [QueueState.advanceWord, QueueState.advance]
  generalize (r.threads t).pc = pc at bound prompt asked
  cases pc with
  | pushCheck q v single pos =>
    obtain rfl : () = q := rfl
    have behind : pos ≤ (r.queues ()).enqueuePos := bound rfl
    have now := near pos
    have ahead : (r.queues ()).enqueuePos - pos < 2 ^ 62 := prompt
    dsimp only
    rw [wordDifference_eq (by omega) (by omega), QueueState.checkPush,
      if_pos (cells.ring.index_lt pos)]
    simp only [sub_eq_zero, Nat.cast_inj, sub_neg, Nat.cast_lt]
    split_ifs <;> rfl
  | pushClaim q v single pos =>
    obtain rfl : () = q := rfl
    have behind : pos ≤ (r.queues ()).enqueuePos := (bound rfl).1
    have ahead : (r.queues ()).enqueuePos - pos < 2 ^ 62 := prompt
    obtain rfl : single = false := by
      cases single with
      | false => rfl
      | true => exact absurd asked (unflagged v)
    dsimp only
    rw [wordDifference_eq (by omega) (by omega), QueueState.claimPush]
    simp only [sub_eq_zero, Nat.cast_inj, Bool.false_eq_true, false_or]
  | popCheck q pos =>
    obtain rfl : () = q := rfl
    have behind : pos ≤ (r.queues ()).dequeuePos := bound rfl
    have now := near pos
    have ahead : (r.queues ()).dequeuePos - pos < 2 ^ 62 := prompt
    dsimp only
    rw [wordDifference_eq (by omega) (by omega), QueueState.checkPop,
      if_pos (cells.ring.index_lt pos)]
    simp only [sub_eq_zero, Nat.cast_inj, sub_neg, Nat.cast_lt]
    split_ifs <;> rfl
  | popClaim q pos =>
    obtain rfl : () = q := rfl
    have behind : pos ≤ (r.queues ()).dequeuePos := (bound rfl).1
    have ahead : (r.queues ()).dequeuePos - pos < 2 ^ 62 := prompt
    dsimp only
    rw [wordDifference_eq (by omega) (by omega), QueueState.claimPop]
    simp only [sub_eq_zero, Nat.cast_inj]
  | _ => rfl

/-- The ring keeps its size. -/
theorem QueueState.advance_size {r' : QueueState Unit τ α} (moved : r.advance t spurious = some r') :
    (r'.queues ()).size = (r.queues ()).size := by
  simp only [advance] at moved
  generalize (r.threads t).pc = pc at moved
  cases pc <;> simp only [checkPush, checkPop, claimPush, claimPop] at moved <;>
    (try split_ifs at moved) <;> cases moved <;>
    simp [publish, release, setPc, setThread, setQueue, JobQueue.setData, JobQueue.setSequence]

end Words

section Fifo

/-- A call that has not taken a position yet. -/
def QueuePc.pushing : QueuePc ι α → Bool
  | .pushReload .. | .pushCheck .. | .pushClaim .. => true
  | _ => false

def QueuePc.popping : QueuePc ι α → Bool
  | .popReload .. | .popCheck .. | .popClaim .. => true
  | _ => false

/-- Another thread has taken the position that the call works from. -/
def QueuePc.Overtaken (q : JobQueue α) : QueuePc ι α → Prop
  | .pushCheck _ _ _ pos | .pushClaim _ _ _ pos => pos < q.enqueuePos
  | .popCheck _ pos | .popClaim _ pos => pos < q.dequeuePos
  | _ => False

/-- What the queue promises about one action: the values and their order, that an attempt is only
lost to another thread or to a compare-exchange that fails for no reason, and what a failing call
has seen unless it has lost all its attempts. -/
structure ExecutorQueue.Keeps (s : ExecutorQueue τ α) (a : TaskAction τ α)
    (s' : ExecutorQueue τ α) : Prop where
  values : HoldsValues s'.ring ()
  order : MovesInOrder s.ring () s'.ring
  lost : ∀ t, s'.attempts t = s.attempts t ∨
    (s'.attempts t = 0 ∧ (s.ring.threads t).pc = .idle) ∨
    (s'.attempts t = s.attempts t + 1 ∧ ∃ spurious, a = .next t spurious ∧
      (spurious = true ∨ (s.ring.threads t).pc.Overtaken (s.ring.queues ())))
  pushFails : ∀ t spurious, a = .next t spurious → (s.ring.threads t).pc.pushing = true →
    (s'.ring.threads t).pc = .idle → NoFreeCell s.ring () ∨ queueCasAttemptLimit ≤ s'.attempts t
  popFails : ∀ t spurious, a = .next t spurious → (s.ring.threads t).pc.popping = true →
    (s'.ring.threads t).pc = .idle → NoHead s.ring () ∨ queueCasAttemptLimit ≤ s'.attempts t

/-- The call of the queue of jobs whose accesses a call makes. -/
def TaskAction.job : TaskAction τ α → QueueAction Unit τ α
  | .tryPush t item => .push t () item false
  | .tryPop t => .pop t ()
  | .next t spurious => .next t spurious

variable {s s' : ExecutorQueue τ α} {a : TaskAction τ α} {actions : List (TaskAction τ α)}
variable {r : QueueState Unit τ α} {t : τ} {spurious : Bool}

theorem not_flagged {q : Unit} {v : α} : .push t q v true ∉ actions.map TaskAction.job := by
  intro member
  obtain ⟨b, -, eq⟩ := List.mem_map.mp member
  cases b <;> cases eq

theorem oneQueue_of_tasks : OneQueuePerThread (actions.map TaskAction.job) :=
  ⟨fun _ _ _ _ _ => rfl, fun _ _ _ flagged => absurd flagged not_flagged⟩

variable [DecidableEq τ]

/-- A thread goes on from where it holds no cell to where it relies on nothing. -/
theorem QueuesServe.set (h : QueuesServe (actions.map TaskAction.job) r) {old pc : QueuePc Unit α}
    (place : (r.threads t).pc = old) (before : old.reading = none)
    (new : pc = .idle ∨ pc = .popReload () ∧ .tryPop t ∈ actions) :
    QueuesServe (actions.map TaskAction.job) (r.setPc t pc) := by
  have on (pc : QueuePc Unit α) : pc.on = none ∨ pc.on = some () := by
    cases pc <;> simp [QueuePc.on]
  refine h.turn place () _ (on _) (on _) (fun _ _ _ => ?_) (.inl ?_) ?_ ?_ (fun _ _ => .inl rfl)
    fun n w flagged => absurd flagged not_flagged
  all_goals rcases new with rfl | ⟨rfl, asked⟩
  · trivial
  · trivial
  · rfl
  · rfl
  · exact before.symm
  · exact before.symm
  · trivial
  · exact List.mem_map_of_mem (f := TaskAction.job) asked

/-- The ring of a run with `2 ^ k` cells. -/
structure ExecutorQueue.Serves (k : ℕ) (actions : List (TaskAction τ α)) (s : ExecutorQueue τ α) :
    Prop where
  ring : QueuesServe (actions.map TaskAction.job) s.ring
  size : (s.ring.queues ()).size = 2 ^ k

/-- The ways a call can go on: with the access of the queue of jobs, or by giving up after it. -/
theorem ExecutorQueue.Serves.next_cases {k : ℕ} (h : s.Serves k actions) (small : k ≤ 61)
    (prompt : s.Prompt (.next t spurious)) (stepped : s.next t spurious = some s') :
    ∃ ring, s.ring.advance t spurious = some ring ∧
      s'.attempts = update s.attempts t (s.attempts t +
        if (s.ring.threads t).pc.loses (ring.threads t).pc then 1 else 0) ∧
      (s'.ring = ring ∨ (ring.threads t).pc.tries = true ∧
        queueCasAttemptLimit ≤ s'.attempts t ∧ s'.ring = ring.setPc t .idle) := by
  obtain ⟨ring, moved, rfl⟩ := Option.map_eq_some_iff.mp stepped
  rw [h.ring.advanceWord_eq (fun _ => not_flagged)
    (h.size.trans_le (Nat.pow_le_pow_right (by decide) small)) prompt] at moved
  refine ⟨ring, moved, rfl, ?_⟩
  dsimp only
  rw [update_self, ite_eq_right_iff]
  exact (em _).symm.imp (fun goesOn again => absurd again goesOn) fun again =>
    ⟨again.1, again.2, if_pos again⟩

theorem ExecutorQueue.Serves.act {k : ℕ} (h : s.Serves k actions) (small : k ≤ 61)
    (member : a ∈ actions) (prompt : s.Prompt a) (stepped : s.act a = some s') :
    s'.Serves k actions := by
  have asked : a.job ∈ actions.map TaskAction.job := List.mem_map_of_mem member
  cases a with
  | tryPush t item =>
    simp only [ExecutorQueue.act, call] at stepped
    split at stepped
    next idle =>
      cases stepped
      exact ⟨h.ring.push oneQueue_of_tasks asked (by simp [QueueState.act, idle]), h.size⟩
    next => cases stepped
  | tryPop t =>
    simp only [ExecutorQueue.act, call] at stepped
    split at stepped
    next idle =>
      cases stepped
      exact ⟨h.ring.set idle rfl (.inr ⟨rfl, member⟩), h.size⟩
    next => cases stepped
  | next t spurious =>
    obtain ⟨ring, moved, -, same | ⟨again, -, gaveUp⟩⟩ := h.next_cases small prompt stepped
    all_goals have served := h.ring.act oneQueue_of_tasks asked moved
    all_goals have size := (QueueState.advance_size moved).trans h.size
    · exact ⟨same ▸ served, same ▸ size⟩
    · refine ⟨gaveUp ▸ served.set rfl ?_ (.inl rfl), gaveUp ▸ size⟩
      revert again
      cases (ring.threads t).pc <;> simp [reading, tries]

/-- A position that was loaded and whose cell has moved on belongs to another thread. -/
theorem QueuesServe.overtaken {actions : List (QueueAction Unit τ α)} (h : QueuesServe actions r)
    {r' : QueueState Unit τ α} (moved : r.advance t spurious = some r')
    (loses : (r.threads t).pc.loses (r'.threads t).pc = true) :
    spurious = true ∨ (r.threads t).pc.Overtaken (r.queues ()) := by
  obtain ⟨slot, cells, -, pcs⟩ := h.cells ()
  have bound := pcs t
  simp only [QueueState.advance] at moved
  generalize place : (r.threads t).pc = pc at bound moved loses
  cases pc with
  | pushCheck q v single pos =>
    simp only [QueueState.checkPush] at moved
    split_ifs at moved with inside same older <;> cases moved
    · simp [QueuePc.loses, QueueState.setPc] at loses
    · simp [QueuePc.loses] at loses
    · refine .inr ((bound rfl).lt_of_ne fun here => ?_)
      subst here
      exact same (cells.free (not_lt.mp older)).2
  | pushClaim q v single pos =>
    cases moved
    by_cases wins : single = true ∨ (r.queues q).enqueuePos = pos ∧ ¬spurious = true
    · simp only [QueueState.claimPush] at loses
      rw [if_pos wins] at loses
      simp [QueuePc.loses] at loses
    · simp only [not_or, not_and, not_not] at wins
      by_cases same : (r.queues q).enqueuePos = pos
      · exact .inl (wins.2 same)
      · exact .inr ((bound rfl).1.lt_of_ne (Ne.symm same))
  | popCheck q pos =>
    simp only [QueueState.checkPop] at moved
    split_ifs at moved with inside same older <;> cases moved
    · simp [QueuePc.loses, QueueState.setPc] at loses
    · simp [QueuePc.loses] at loses
    · refine .inr ((bound rfl).lt_of_ne fun here => ?_)
      subst here
      exact same (cells.full (not_lt.mp older)).2.2
  | popClaim q pos =>
    cases moved
    by_cases wins : (r.queues q).dequeuePos = pos ∧ ¬spurious = true
    · simp only [QueueState.claimPop] at loses
      rw [if_pos wins] at loses
      simp [QueuePc.loses] at loses
    · simp only [not_and, not_not] at wins
      by_cases same : (r.queues q).dequeuePos = pos
      · exact .inl (wins same)
      · exact .inr ((bound rfl).1.lt_of_ne (Ne.symm same))
  | _ => cases loses

/-- A call that has taken no position returns from a look at its cell. -/
theorem QueueState.advance_idle {r' : QueueState Unit τ α} (moved : r.advance t spurious = some r')
    (idle : (r'.threads t).pc = .idle) :
    ((r.threads t).pc.pushing = true →
        ∃ v single pos, (r.threads t).pc = .pushCheck () v single pos) ∧
      ((r.threads t).pc.popping = true → ∃ pos, (r.threads t).pc = .popCheck () pos) := by
  simp only [advance] at moved
  generalize (r.threads t).pc = pc at moved
  cases pc with
  | pushCheck q v single pos => exact ⟨fun _ => ⟨v, single, pos, rfl⟩, by rintro ⟨⟩⟩
  | popCheck q pos => exact ⟨by rintro ⟨⟩, fun _ => ⟨pos, rfl⟩⟩
  | pushReload q v single | popReload q =>
    cases moved
    simp [setPc] at idle
  | pushClaim q v single pos =>
    cases moved
    simp only [claimPush] at idle
    split at idle <;> simp [setPc] at idle
  | popClaim q pos =>
    cases moved
    simp only [claimPop] at idle
    split at idle <;> simp [setPc] at idle
  | _ => constructor <;> rintro ⟨⟩

theorem MovesInOrder.giveUp {q : Unit} {r' : QueueState Unit τ α} (h : MovesInOrder r q r')
    (again : (r'.threads t).pc.tries = true) : MovesInOrder r q (r'.setPc t .idle) := by
  refine h.imp_right (Or.imp_right fun ⟨v, u, taken, reads, value⟩ => ⟨v, u, taken, ?_, value⟩)
  have other : u ≠ t := by
    rintro rfl
    rw [reads] at again
    cases again
  simpa [QueueState.setPc, other] using reads

end Fifo

section Inputs

/-- Two pushes, a pop that has taken the first task and not given its cell back, and a whole pop of
the second. -/
def slowTask : List (TaskAction (Fin 3) (Fin 3)) :=
  .tryPush 0 1 :: List.replicate 5 (.next 0 false) ++
    .tryPush 0 2 :: List.replicate 5 (.next 0 false) ++
    .tryPop 1 :: List.replicate 3 (.next 1 false) ++
    .tryPop 2 :: List.replicate 5 (.next 2 false)

/-- A push that nothing overtakes. -/
def lonePush : List (TaskAction (Fin 3) (Fin 3)) :=
  [.tryPush 0 0, .next 0 false, .next 0 false]

instance (s : ExecutorQueue τ α) : (a : TaskAction τ α) → Decidable (s.Prompt a)
  | .tryPush _ _ | .tryPop _ => isTrue trivial
  | .next _ _ => inferInstanceAs (Decidable (_ < _))

end Inputs

end RtRuntime
