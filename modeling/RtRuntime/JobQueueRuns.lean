import RtRuntime.JobQueueFifo

/-!
# Runs of the queue of jobs

The cells are served correctly as long as each thread works from a position of the queue it is
working on.  The cached positions belong to a thread, so this asks that a thread pops from one
queue only and that the one producer of a queue pushes to no other; then every interleaving keeps
the invariant.
-/

namespace RtRuntime

open QueueState JobQueue

open Function (update update_self update_of_ne forall_update_iff)

variable {ι τ α : Type*}

section Threads

/-- The queue that the call at hand works on. -/
def QueuePc.on : QueuePc ι α → Option ι
  | .idle => none
  | .pushReload q _ _ | .pushCheck q _ _ _ | .pushClaim q _ _ _ => some q
  | .pushWrite q _ _ | .pushPublish q _ _ => some q
  | .popReload q | .popCheck q _ | .popClaim q _ | .popRead q _ | .popRelease q _ _ => some q

/-- The position that a consumer has taken and not given back. -/
def QueuePc.reading : QueuePc ι α → Option (ι × ℕ)
  | .popRead q pos | .popRelease q pos _ => some (q, pos)
  | _ => none

/-- The position whose cell the thread owns, as producer or as consumer. -/
def QueuePc.holds : QueuePc ι α → Option (ι × ℕ)
  | .pushWrite q _ pos | .pushPublish q _ pos => some (q, pos)
  | .popRead q pos | .popRelease q pos _ => some (q, pos)
  | _ => none

variable {pos : ℕ}

attribute [simp] QueueState.setThread QueueState.setQueue

theorem QueuePc.on_of_holds {pc : QueuePc ι α} {q : ι} (h : pc.holds = some (q, pos)) :
    pc.on = some q := by
  cases pc <;> simp_all [QueuePc.holds, QueuePc.on]

theorem QueuePc.holds_of_reading {pc : QueuePc ι α} {w : ι × ℕ} (h : pc.reading = some w) :
    pc.holds = some w := by
  cases pc <;> simp_all [QueuePc.holds, QueuePc.reading]

/-- What a thread may rely on about the queue `name` where it stands. -/
def PcServes (name : ι) (q : JobQueue α) (slot : ℕ → ℕ) : QueuePc ι α → Prop
  | .idle | .pushReload _ _ _ | .popReload _ => True
  | .pushCheck n _ _ pos => n = name → pos ≤ q.enqueuePos
  | .pushClaim n _ _ pos => n = name → pos ≤ q.enqueuePos ∧ pos ≤ (q.cell pos).sequence
  | .pushWrite n v pos => n = name → Writes q slot pos v
  | .pushPublish n v pos => n = name → Writes q slot pos v ∧ (q.cell pos).data = some v
  | .popCheck n pos => n = name → pos ≤ q.dequeuePos
  | .popClaim n pos => n = name → pos ≤ q.dequeuePos ∧ pos + 1 ≤ (q.cell pos).sequence
  | .popRead n pos => n = name → Reads q slot pos
  | .popRelease n pos out => n = name → Reads q slot pos ∧ out = q.history.claimed[pos]?

variable {name : ι} {q q' : JobQueue α} {slot slot' : ℕ → ℕ} {pc : QueuePc ι α}

theorem PcServes.elsewhere (other : pc.on ≠ some name) : PcServes name q slot pc := by
  cases pc <;> simp_all [PcServes, QueuePc.on]

section

variable (h : PcServes name q slot pc)
include h

/-- Who holds a position has still to publish it or to give it back. -/
theorem PcServes.held (holds : pc.holds = some (name, pos)) :
    (∃ v, Writes q slot pos v) ∨ Reads q slot pos := by
  cases pc <;> simp only [QueuePc.holds, Option.some.injEq, Prod.mk.injEq, reduceCtorEq] at holds
  all_goals obtain ⟨rfl, rfl⟩ := holds
  · exact .inl ⟨_, h rfl⟩
  · exact .inl ⟨_, (h rfl).1⟩
  · exact .inr (h rfl)
  · exact .inr (h rfl).1

/-- The position a thread holds is served by its cell. -/
theorem PcServes.serves (holds : pc.holds = some (name, pos)) :
    slot (q.index pos) = pos :=
  (h.held holds).elim (fun ⟨_, writes⟩ => writes.serves) Reads.serves

/-- A position that a thread holds was claimed before. -/
theorem PcServes.claimed (cells : CellsServe q slot)
    (holds : pc.holds = some (name, pos)) : pos < q.enqueuePos :=
  (h.held holds).elim (fun ⟨_, writes⟩ => writes.claimed) fun reads =>
    reads.taken.trans_le cells.ordered

/-- A published position that no consumer has taken is held by nobody. -/
theorem PcServes.not_head
    (seen : q.dequeuePos + 1 ≤ (q.cell q.dequeuePos).sequence) :
    pc.holds ≠ some (name, q.dequeuePos) := by
  intro holds
  rcases h.held holds with ⟨v, writes⟩ | reads
  · have := writes.sequence
    omega
  · exact absurd reads.taken (lt_irrefl _)

end

theorem Writes.evolve {v : α} (h : Writes q slot pos v) (evolves : Evolves q q')
    (cell : q'.cell pos = q.cell pos) (serves : slot' (q.index pos) = slot (q.index pos)) :
    Writes q' slot' pos v where
  claimed := h.claimed.trans_le evolves.enqueuePos
  serves := by rw [evolves.index, serves, h.serves]
  sequence := by rw [cell, h.sequence]
  value := evolves.claimed _ _ h.value

theorem Reads.evolve (h : Reads q slot pos) (evolves : Evolves q q')
    (cell : q'.cell pos = q.cell pos) (serves : slot' (q.index pos) = slot (q.index pos)) :
    Reads q' slot' pos where
  taken := h.taken.trans_le evolves.dequeuePos
  serves := by rw [evolves.index, serves, h.serves]
  sequence := by rw [cell, h.sequence]

theorem Evolves.cell_sequence (h : Evolves q q') (pos : ℕ) :
    (q.cell pos).sequence ≤ (q'.cell pos).sequence := by
  rw [JobQueue.cell, JobQueue.cell, h.index]
  exact h.sequence _

/-- What a thread relies on survives a step of another thread, if that step leaves alone the cell
the thread holds. -/
theorem PcServes.evolve (cells : CellsServe q slot) (h : PcServes name q slot pc)
    (evolves : Evolves q q')
    (kept : ∀ pos, pc.holds = some (name, pos) →
      q'.cell pos = q.cell pos ∧ slot' (q.index pos) = slot (q.index pos)) :
    PcServes name q' slot' pc := by
  cases pc with
  | idle | pushReload _ _ _ | popReload _ => trivial
  | pushCheck n v single pos => exact fun same => (h same).trans evolves.enqueuePos
  | pushClaim n v single pos =>
    exact fun same => ⟨(h same).1.trans evolves.enqueuePos,
      (h same).2.trans (evolves.cell_sequence pos)⟩
  | popCheck n pos => exact fun same => (h same).trans evolves.dequeuePos
  | popClaim n pos =>
    exact fun same => ⟨(h same).1.trans evolves.dequeuePos,
      (h same).2.trans (evolves.cell_sequence pos)⟩
  | pushWrite n v pos | popRead n pos =>
    rintro rfl
    obtain ⟨cell, serves⟩ := kept pos rfl
    exact (h rfl).evolve evolves cell serves
  | pushPublish n v pos =>
    rintro rfl
    obtain ⟨cell, serves⟩ := kept pos rfl
    exact ⟨(h rfl).1.evolve evolves cell serves, by rw [cell]; exact (h rfl).2⟩
  | popRelease n pos out =>
    rintro rfl
    obtain ⟨cell, serves⟩ := kept pos rfl
    obtain ⟨reads, rfl⟩ := h rfl
    obtain ⟨v, -, value⟩ := reads.data cells
    exact ⟨reads.evolve evolves cell serves, by rw [value, evolves.claimed _ _ value]⟩

end Threads

section Usage

variable (actions : List (QueueAction ι τ α))

/-- The calls of a run in which no thread meets a position it cached for another queue: each thread
pops from one queue, and where a push uses the single-producer flag, its thread is the only one
that pushes to that queue and pushes to no other. -/
structure OneQueuePerThread : Prop where
  pops : ∀ t q q', .pop t q ∈ actions → .pop t q' ∈ actions → q = q'
  producer : ∀ t q v, .push t q v true ∈ actions →
    ∀ t' q' v' single, .push t' q' v' single ∈ actions → (q' = q ↔ t' = t)

/-- The call a thread is in was asked for. -/
def PcFrom (t : τ) : QueuePc ι α → Prop
  | .idle => True
  | .pushReload q v single | .pushCheck q v single _ | .pushClaim q v single _ =>
    .push t q v single ∈ actions
  | .pushWrite q v _ | .pushPublish q v _ => ∃ single, .push t q v single ∈ actions
  | .popReload q | .popCheck q _ | .popClaim q _ | .popRead q _ | .popRelease q _ _ =>
    .pop t q ∈ actions

/-- The producer that uses the flag works from the end of its queue. -/
def AtEnd (q : JobQueue α) (thread : QueueThread ι α) : Prop :=
  match thread.pc with
  | .pushReload _ _ _ => True
  | .pushCheck _ _ _ pos | .pushClaim _ _ _ pos => pos = q.enqueuePos
  | _ => thread.enqueueCache = q.enqueuePos

/-- The invariant of all queues and all threads. -/
structure QueuesServe (s : QueueState ι τ α) : Prop where
  cells : ∀ q, ∃ slot, CellsServe (s.queues q) slot ∧ ReturnsServe (s.queues q) slot ∧
    ∀ t, PcServes q (s.queues q) slot (s.threads t).pc
  alone : ∀ t t' w, (s.threads t).pc.holds = some w → (s.threads t').pc.holds = some w → t = t'
  taken : ∀ q, ∀ p < (s.queues q).dequeuePos, (∃ t, (s.threads t).pc.reading = some (q, p)) ∨
    (p, (s.queues q).history.claimed[p]?) ∈ (s.queues q).history.popped
  asked : ∀ t, PcFrom actions t (s.threads t).pc
  head : ∀ t q, .pop t q ∈ actions → (s.threads t).dequeueCache ≤ (s.queues q).dequeuePos
  atEnd : ∀ t q v, .push t q v true ∈ actions → AtEnd (s.queues q) (s.threads t)

variable {actions} [DecidableEq ι] [DecidableEq τ]

/-- One thread moves on one queue: what has to be shown about the move. -/
theorem QueuesServe.move {s : QueueState ι τ α} (h : QueuesServe actions s) {t : τ}
    {old : QueuePc ι α} (place : (s.threads t).pc = old) (q : ι) (queue : JobQueue α)
    (thread : QueueThread ι α) (before : old.on = none ∨ old.on = some q)
    (after : thread.pc.on = none ∨ thread.pc.on = some q)
    (local' : ∀ slot, CellsServe (s.queues q) slot → ReturnsServe (s.queues q) slot →
      PcServes q (s.queues q) slot old →
      Evolves (s.queues q) queue ∧ ∃ slot', CellsServe queue slot' ∧ ReturnsServe queue slot' ∧
        PcServes q queue slot' thread.pc ∧
        (∀ i, (∀ pos, old.holds = some (q, pos) → i ≠ (s.queues q).index pos) →
          queue.cells i = (s.queues q).cells i ∧ slot' i = slot i) ∧
        ∀ w, thread.pc.holds = some w → old.holds = some w ∨
          ∀ pc : QueuePc ι α, PcServes q (s.queues q) slot pc → pc.holds ≠ some w)
    (taken : ∀ p < queue.dequeuePos, thread.pc.reading = some (q, p) ∨
      (p, queue.history.claimed[p]?) ∈ queue.history.popped ∨
      (p < (s.queues q).dequeuePos ∧ old.reading ≠ some (q, p)))
    (popped : ∀ p < (s.queues q).dequeuePos,
      (p, (s.queues q).history.claimed[p]?) ∈ (s.queues q).history.popped →
      (p, queue.history.claimed[p]?) ∈ queue.history.popped)
    (asked : PcFrom actions t thread.pc)
    (head : ∀ n, .pop t n ∈ actions → thread.dequeueCache = (s.threads t).dequeueCache ∨
      (n = q ∧ thread.dequeueCache ≤ queue.dequeuePos))
    (atEnd : ∀ n v, .push t n v true ∈ actions → (n = q ∧ AtEnd queue thread) ∨
      (queue.enqueuePos = (s.queues q).enqueuePos ∧
        (AtEnd (s.queues n) (s.threads t) → AtEnd (s.queues n) thread)))
    (others : queue.enqueuePos = (s.queues q).enqueuePos ∨
      ∀ t' v, .push t' q v true ∈ actions → t' = t) :
    QueuesServe actions ((s.setQueue q queue).setThread t thread) := by
  subst place
  obtain ⟨slot, cells, returns, pcs⟩ := h.cells q
  obtain ⟨evolves, slot', cells', returns', pc', kept, fresh⟩ := local' slot cells returns (pcs t)
  have single : ∀ c w, thread.pc.holds = some w → (s.threads c).pc.holds = some w → c = t := by
    intro c w mover holds
    rcases fresh w mover with old | new
    · exact h.alone c t w holds old
    · exact absurd holds (new _ (pcs c))
  refine ⟨(forall_update_iff s.queues fun n queue => ∃ slot, CellsServe queue slot ∧
      ReturnsServe queue slot ∧ ∀ a, PcServes n queue slot (update s.threads t thread a).pc).mpr
        ⟨⟨slot', cells', returns', ?_⟩, fun n same => ?_⟩, fun a b w ha hb => ?_,
    fun n p inside => ?_,
    (forall_update_iff s.threads fun a thread => PcFrom actions a thread.pc).mpr
      ⟨asked, fun a _ => h.asked a⟩, fun a n call => ?_, fun a n v call => ?_⟩
  · refine (forall_update_iff s.threads fun _ thread => PcServes q queue slot' thread.pc).mpr
      ⟨pc', fun a mine => (pcs a).evolve cells evolves fun pos holds => ?_⟩
    -- the mover's own cell is another one
    have apart : ∀ own, (s.threads t).pc.holds = some (q, own) →
        (s.queues q).index pos ≠ (s.queues q).index own := by
      intro own mover
      refine index_ne_of_serves ((pcs a).serves holds) ((pcs t).serves mover) ?_
      rintro rfl
      exact mine (h.alone a t _ holds mover)
    obtain ⟨cell, slots⟩ := kept _ apart
    exact ⟨by rw [JobQueue.cell, evolves.index, cell]; rfl, slots⟩
  · obtain ⟨slotN, cellsN, returnsN, pcsN⟩ := h.cells n
    refine ⟨slotN, cellsN, returnsN, (forall_update_iff s.threads fun _ thread =>
      PcServes n (s.queues n) slotN thread.pc).mpr ⟨.elsewhere ?_, fun a _ => pcsN a⟩⟩
    rcases after with idle | on
    · simp [idle]
    · simpa [on] using Ne.symm same
  · by_cases mineA : a = t <;> by_cases mineB : b = t <;>
      simp only [setThread, setQueue, mineA, mineB, update_self, update_of_ne, ne_eq,
        not_false_eq_true] at ha hb
    · rw [mineA, mineB]
    · rw [mineA, single b w ha hb]
    · rw [mineB, single a w hb ha]
    · exact h.alone a b w ha hb
  · by_cases same : n = q
    · subst same
      simp only [setThread, setQueue, update_self] at inside ⊢
      rcases taken p inside with reads | gone | ⟨old, notMine⟩
      · exact .inl ⟨t, by simpa using reads⟩
      · exact .inr gone
      · rcases h.taken n p old with ⟨a, reads⟩ | gone
        · have other : a ≠ t := by
            rintro rfl
            exact notMine reads
          exact .inl ⟨a, by simpa [other] using reads⟩
        · exact .inr (popped p old gone)
    · simp only [setThread, setQueue, update_of_ne same] at inside ⊢
      rcases h.taken n p inside with ⟨a, reads⟩ | gone
      · have other : a ≠ t := by
          rintro rfl
          have on := QueuePc.on_of_holds (QueuePc.holds_of_reading reads)
          rcases before with idle | here
          · rw [on] at idle
            exact absurd idle (by simp)
          · rw [on] at here
            exact same (Option.some.inj here)
        exact .inl ⟨a, by simpa [other] using reads⟩
      · exact .inr gone
  · have grows : (s.queues n).dequeuePos ≤ (update s.queues q queue n).dequeuePos :=
      (forall_update_iff s.queues fun n queue => (s.queues n).dequeuePos ≤ queue.dequeuePos).mpr
        ⟨evolves.dequeuePos, fun _ _ => le_rfl⟩ n
    by_cases mine : a = t
    · subst mine
      simp only [setThread, setQueue, update_self]
      rcases head n call with same | ⟨rfl, bound⟩
      · rw [same]
        exact (h.head a n call).trans grows
      · simpa using bound
    · simp only [setThread, setQueue, update_of_ne mine]
      exact (h.head a n call).trans grows
  · by_cases mine : a = t
    · subst mine
      simp only [setThread, setQueue, update_self]
      rcases atEnd n v call with ⟨rfl, now⟩ | ⟨still, keeps⟩
      · simpa using now
      · have now := keeps (h.atEnd a n v call)
        by_cases same : n = q
        · subst same
          simpa only [AtEnd, update_self, still] using now
        · simpa [same] using now
    · have old := h.atEnd a n v call
      simp only [setThread, setQueue, update_of_ne mine]
      by_cases same : n = q
      · subst same
        rcases others with still | sole
        · simpa only [AtEnd, update_self, still] using old
        · exact absurd (sole a v call) mine
      · simpa [same] using old

omit [DecidableEq τ] in
theorem QueueState.setQueue_self (s : QueueState ι τ α) (q : ι) :
    s.setQueue q (s.queues q) = s := by
  simp

/-- A thread moves without touching its queue. -/
theorem QueuesServe.turn {s : QueueState ι τ α} (h : QueuesServe actions s) {t : τ}
    {old : QueuePc ι α} (place : (s.threads t).pc = old) (q : ι) (thread : QueueThread ι α)
    (before : old.on = none ∨ old.on = some q)
    (after : thread.pc.on = none ∨ thread.pc.on = some q)
    (relies : ∀ slot, CellsServe (s.queues q) slot → PcServes q (s.queues q) slot old →
      PcServes q (s.queues q) slot thread.pc)
    (holds : thread.pc.holds = none ∨ thread.pc.holds = old.holds)
    (reading : thread.pc.reading = old.reading) (asked : PcFrom actions t thread.pc)
    (head : ∀ n, .pop t n ∈ actions → thread.dequeueCache = (s.threads t).dequeueCache ∨
      (n = q ∧ thread.dequeueCache ≤ (s.queues q).dequeuePos))
    (atEnd : ∀ n v, .push t n v true ∈ actions → (n = q ∧ AtEnd (s.queues q) thread) ∨
      (AtEnd (s.queues n) (s.threads t) → AtEnd (s.queues n) thread)) :
    QueuesServe actions (s.setThread t thread) := by
  rw [← s.setQueue_self q]
  refine h.move place q (s.queues q) thread before after (fun slot cells returns pc => ?_)
    (fun p inside => ?_) (fun p _ gone => gone) asked head (fun n v call => ?_) (.inl rfl)
  · refine ⟨Evolves.refl, slot, cells, returns, relies slot cells pc, fun _ _ => ⟨rfl, rfl⟩, ?_⟩
    intro w mine
    rcases holds with none' | same
    · rw [none'] at mine
      exact absurd mine (by simp)
    · exact .inl (same ▸ mine)
  · rw [reading]
    by_cases mine : old.reading = some (q, p)
    · exact .inl mine
    · exact .inr (.inr ⟨inside, mine⟩)
  · exact (atEnd n v call).imp_right fun keeps => ⟨rfl, keeps⟩

end Usage

section Steps

variable {actions : List (QueueAction ι τ α)}
variable {s s' : QueueState ι τ α} {t : τ} {q : ι}
variable {single : Bool} {v : α}

/-- A thread that uses the flag somewhere pushes to that queue only. -/
theorem OneQueuePerThread.pushes_to (usage : OneQueuePerThread actions) {n : ι} {w : α}
    (flagged : .push t n v true ∈ actions) (call : .push t q w single ∈ actions) :
    n = q :=
  ((usage.producer t n v flagged t q w single call).mpr rfl).symm

/-- Nobody else pushes to a queue on which the flag is used. -/
theorem OneQueuePerThread.sole (usage : OneQueuePerThread actions) {t' : τ} {w : α}
    (flagged : .push t' q v true ∈ actions) (call : .push t q w single ∈ actions) : t' = t :=
  ((usage.producer t' q v flagged t q w single call).mp rfl).symm

/-- A fresh ring serves each cell at its own index. -/
theorem QueuesServe.fresh (ring : ∀ q, (s.queues q).Ring) (empty : ∀ q, s.queues q =
      { size := (s.queues q).size, cells := fun i => ⟨i, none⟩, enqueuePos := 0, dequeuePos := 0,
        history := ⟨[], [], []⟩ })
    (idle : ∀ t, s.threads t = ⟨.idle, 0, 0⟩) : QueuesServe actions s where
  cells q := by
    have ring := ring q
    rw [empty q] at ring ⊢
    refine ⟨id, ⟨ring, rfl, le_rfl, fun i inside => Nat.mod_eq_of_lt inside, fun _ _ => Nat.zero_le _,
      fun i inside => (Nat.zero_add _).symm ▸ inside, fun _ _ => .inl rfl,
      fun p _ high => absurd high (Nat.not_lt_zero p), fun p low => absurd low (Nat.not_lt_zero p)⟩,
      ⟨nofun, nofun, List.nodup_nil⟩, fun t => ?_⟩
    rw [idle t]
    trivial
  alone t _ _ holds := by
    rw [idle t] at holds
    cases holds
  taken q p inside := by
    rw [empty q] at inside
    exact absurd inside (Nat.not_lt_zero p)
  asked t := by
    rw [idle t]
    trivial
  head t _ _ := by
    rw [idle t]
    exact Nat.zero_le _
  atEnd t q _ _ := by
    rw [idle t, empty q]
    rfl

theorem QueuesServe.start {capacity : ι → UInt64} (servable : ∀ q, ServableCapacity (capacity q)) :
    QueuesServe actions (QueueState.start capacity : QueueState ι τ α) := by
  refine .fresh (fun q => ?_) (fun _ => rfl) fun _ => rfl
  obtain ⟨k, one_le, word, size, -⟩ := queueSize_of_servable (servable q)
  exact ring_of_size one_le word size

variable [DecidableEq ι] [DecidableEq τ]

theorem QueuesServe.push (usage : OneQueuePerThread actions) (h : QueuesServe actions s)
    (call : .push t q v single ∈ actions) (stepped : s.act (.push t q v single) = some s') :
    QueuesServe actions s' := by
  simp only [QueueState.act] at stepped
  split at stepped
  next idle =>
    cases stepped
    have cached : ∀ n w, .push t n w true ∈ actions →
        (s.threads t).enqueueCache = (s.queues n).enqueuePos := by
      intro n w flagged
      have := h.atEnd t n w flagged
      simpa only [AtEnd, idle] using this
    refine h.turn idle q _ (.inl rfl) (.inr ?_) (fun slot cells _ => ?_) (.inl ?_) ?_ ?_
      (fun _ _ => .inl rfl) (fun n w flagged => .inl ?_)
    · cases single <;> rfl
    · cases single with
      | false => trivial
      | true => exact fun _ => (cached q v call).le
    · cases single <;> rfl
    · cases single <;> rfl
    · cases single <;> exact call
    · obtain rfl := usage.pushes_to flagged call
      refine ⟨rfl, ?_⟩
      cases single with
      | false => trivial
      | true => exact cached n v call
  next => simp at stepped

theorem QueuesServe.pop (h : QueuesServe actions s)
    (call : .pop t q ∈ actions) (stepped : s.act (.pop t q) = some s') :
    QueuesServe actions s' := by
  simp only [QueueState.act] at stepped
  split at stepped
  next idle =>
    cases stepped
    refine h.turn idle q _ (.inl rfl) (.inr rfl) (fun slot cells _ => ?_) (.inl rfl) rfl call
      (fun _ _ => .inl rfl) (fun n w flagged => .inr fun old => ?_)
    · exact fun _ => h.head t q call
    · simpa only [AtEnd, idle] using old
  next => simp at stepped

variable {pos : ℕ}

section

variable (usage : OneQueuePerThread actions) (h : QueuesServe actions s)
include usage h

theorem QueuesServe.checkPush (pc : (s.threads t).pc = .pushCheck q v single pos)
    (stepped : s.checkPush t q v single pos = some s') : QueuesServe actions s' := by
  have call : .push t q v single ∈ actions := by simpa only [PcFrom, pc] using h.asked t
  have ended : ∀ n w, .push t n w true ∈ actions → n = q ∧ pos = (s.queues q).enqueuePos := by
    intro n w flagged
    obtain rfl := usage.pushes_to flagged call
    exact ⟨rfl, by simpa only [AtEnd, pc] using h.atEnd t n w flagged⟩
  simp only [QueueState.checkPush] at stepped
  split at stepped
  next inside =>
    split at stepped
    next same =>
      cases stepped
      refine h.turn pc q _ (.inr rfl) (.inr rfl) (fun slot cells old => ?_) (.inl rfl) rfl
        call (fun _ _ => .inl rfl) (fun n w flagged => .inl (ended n w flagged))
      exact fun _ => ⟨old rfl, same.ge⟩
    next =>
      split at stepped
      next older =>
        cases stepped
        exact h.turn pc q _ (.inr rfl) (.inl rfl) (fun _ _ _ => trivial) (.inl rfl) rfl
          trivial (fun _ _ => .inl rfl) (fun n w flagged => .inl (ended n w flagged))
      next =>
        cases stepped
        refine h.turn pc q _ (.inr rfl) (.inr rfl) (fun _ _ _ => trivial) (.inl rfl) rfl
          call (fun _ _ => .inl rfl) (fun n w flagged => .inl ?_)
        exact ⟨usage.pushes_to flagged call, trivial⟩
  next => simp at stepped

theorem QueuesServe.reloadPush
    {old : QueuePc ι α} (pc : (s.threads t).pc = old) (call : .push t q v single ∈ actions)
    (on : old.on = some q) (reading : old.reading = none) :
    QueuesServe actions (s.setPc t (.pushCheck q v single (s.queues q).enqueuePos)) := by
  refine h.turn pc q _ (.inr on) (.inr rfl) (fun _ _ _ _ => le_rfl) (.inl rfl) reading.symm
    call (fun _ _ => .inl rfl) (fun n w flagged => .inl ?_)
  exact ⟨usage.pushes_to flagged call, rfl⟩

theorem QueuesServe.claimPush
    (pc : (s.threads t).pc = .pushClaim q v single pos) (spurious : Bool) :
    QueuesServe actions (s.claimPush t q v single pos spurious) := by
  have call : .push t q v single ∈ actions := by simpa only [PcFrom, pc] using h.asked t
  simp only [QueueState.claimPush]
  split
  next wins =>
    have here : pos = (s.queues q).enqueuePos := by
      rcases wins with flag | ⟨same, -⟩
      · rw [flag] at call
        simpa only [AtEnd, pc] using h.atEnd t q v call
      · exact same.symm
    subst here
    refine h.move pc q ((s.queues q).claim v) _ (.inr rfl) (.inr rfl)
      (fun slot cells returns old => ?_) (fun p inside => ?_) (fun p inside gone => ?_) ⟨single, call⟩
      (fun _ _ => .inl rfl) (fun n w flagged => .inl ?_)
      (.inr fun t' w flagged => usage.sole flagged call)
    · obtain ⟨-, seen⟩ := old rfl
      obtain ⟨cells', writes⟩ := cells.claim v seen
      have returns' : ReturnsServe ((s.queues q).claim v) slot := by
        refine returns.evolve (claim_evolves v) (fun _ => rfl) rfl rfl fun p inside => ?_
        exact List.getElem?_append_left (inside.trans_le cells.taken_le)
      refine ⟨claim_evolves v, slot, cells', returns', fun _ => writes,
        fun _ _ => ⟨rfl, rfl⟩, fun w mine => .inr fun other relies held => ?_⟩
      obtain rfl : w = (q, (s.queues q).enqueuePos) := (Option.some.inj mine).symm
      exact absurd (relies.claimed cells held) (lt_irrefl _)
    · exact .inr (.inr ⟨inside, nofun⟩)
    · obtain ⟨slot, cells, -⟩ := h.cells q
      simpa only [claim, List.getElem?_append_left (inside.trans_le cells.taken_le)] using gone
    · exact ⟨usage.pushes_to flagged call, rfl⟩
  next => exact h.reloadPush usage pc call rfl rfl

end

variable (h : QueuesServe actions s)
include h

theorem QueuesServe.write (pc : (s.threads t).pc = .pushWrite q v pos) :
    QueuesServe actions
      ((s.setQueue q ((s.queues q).setData pos (some v))).setPc t (.pushPublish q v pos)) := by
  obtain ⟨single, call⟩ : ∃ single, .push t q v single ∈ actions := by
    simpa only [PcFrom, pc] using h.asked t
  have evolves : Evolves (s.queues q) ((s.queues q).setData pos (some v)) :=
    setData_evolves pos (some v)
  refine h.move pc q _ _ (.inr rfl) (.inr rfl) (fun slot cells returns old => ?_)
    (fun p inside => .inr (.inr ⟨inside, nofun⟩)) (fun p _ gone => gone)
    ⟨single, call⟩ (fun _ _ => .inl rfl) (fun n w flagged => .inr ⟨rfl, fun old => ?_⟩) (.inl rfl)
  · have writes := old rfl
    have cell : ((s.queues q).setData pos (some v)).cell pos =
        { (s.queues q).cell pos with data := some v } := by
      rw [JobQueue.cell, evolves.index]
      simp [setData]
    refine ⟨evolves, slot, cells.setData writes _, returns.evolve evolves
      (setData_sequence pos (some v)) rfl rfl (fun _ _ => rfl),
      fun _ => ⟨⟨writes.claimed, ?_, ?_, writes.value⟩, ?_⟩, fun i apart => ?_,
      fun w mine => .inl mine⟩
    · rw [evolves.index]
      exact writes.serves
    · rw [cell]
      exact writes.sequence
    · rw [cell]
    · have ne := apart pos rfl
      exact ⟨by simp [setData, ne], rfl⟩
  · simpa only [AtEnd, pc, setQueue] using old

theorem QueuesServe.publish (pc : (s.threads t).pc = .pushPublish q v pos) :
    QueuesServe actions (s.publish t q v pos) := by
  refine h.move pc q ((s.queues q).published pos v) _ (.inr rfl) (.inl rfl)
    (fun slot cells returns old => ?_)
    (fun p inside => .inr (.inr ⟨inside, nofun⟩)) (fun p _ gone => gone)
    trivial (fun _ _ => .inl rfl) (fun n w flagged => .inr ⟨rfl, fun old => ?_⟩) (.inl rfl)
  · obtain ⟨writes, data⟩ := old rfl
    refine ⟨writes.published_evolves, slot, cells.publish writes data, returns.publish writes,
      trivial, fun i apart => ⟨?_, rfl⟩, fun w mine => absurd mine (by simp [QueuePc.holds])⟩
    have ne := apart pos rfl
    simp [published, setSequence, ne]
  · simpa only [AtEnd, pc, setQueue] using old

theorem QueuesServe.reloadPop {old : QueuePc ι α}
    (pc : (s.threads t).pc = old) (call : .pop t q ∈ actions) (on : old.on = some q)
    (reading : old.reading = none)
    (apart : ∀ n : JobQueue α, AtEnd n (s.threads t) → (s.threads t).enqueueCache = n.enqueuePos) :
    QueuesServe actions (s.setPc t (.popCheck q (s.queues q).dequeuePos)) :=
  h.turn pc q _ (.inr on) (.inr rfl) (fun _ _ _ _ => le_rfl) (.inl rfl) reading.symm call
    (fun _ _ => .inl rfl) fun n _ _ => .inr (apart (s.queues n))

theorem QueuesServe.checkPop (usage : OneQueuePerThread actions)
    (pc : (s.threads t).pc = .popCheck q pos) (stepped : s.checkPop t q pos = some s') :
    QueuesServe actions s' := by
  have call : .pop t q ∈ actions := by simpa only [PcFrom, pc] using h.asked t
  have ended : ∀ n : JobQueue α, AtEnd n (s.threads t) →
      (s.threads t).enqueueCache = n.enqueuePos := fun n old => by simpa only [AtEnd, pc] using old
  simp only [QueueState.checkPop] at stepped
  split at stepped
  next inside =>
    split at stepped
    next same =>
      cases stepped
      refine h.turn pc q _ (.inr rfl) (.inr rfl) (fun slot cells old => ?_) (.inl rfl) rfl
        call (fun _ _ => .inl rfl) (fun n w flagged => .inr (ended _))
      exact fun _ => ⟨old rfl, same.ge⟩
    next =>
      split at stepped
      next older =>
        cases stepped
        refine h.turn pc q _ (.inr rfl) (.inl rfl) (fun _ _ _ => trivial) (.inl rfl) rfl
          trivial (fun n call' => .inr ?_) (fun n w flagged => .inr (ended _))
        obtain ⟨slot, -, -, pcs⟩ := h.cells q
        have old := pcs t
        rw [pc] at old
        exact ⟨usage.pops t n q call' call, old rfl⟩
      next =>
        cases stepped
        exact h.turn pc q _ (.inr rfl) (.inr rfl) (fun _ _ _ => trivial) (.inl rfl) rfl
          call (fun _ _ => .inl rfl) (fun n w flagged => .inr (ended _))
  next => simp at stepped

theorem QueuesServe.claimPop (usage : OneQueuePerThread actions)
    (pc : (s.threads t).pc = .popClaim q pos) (spurious : Bool) :
    QueuesServe actions (s.claimPop t q pos spurious) := by
  have call : .pop t q ∈ actions := by simpa only [PcFrom, pc] using h.asked t
  have ended : ∀ n : JobQueue α, AtEnd n (s.threads t) →
      (s.threads t).enqueueCache = n.enqueuePos := fun n old => by simpa only [AtEnd, pc] using old
  simp only [QueueState.claimPop]
  split
  next wins =>
    obtain ⟨rfl, -⟩ := wins
    have evolves : Evolves (s.queues q)
        { s.queues q with dequeuePos := (s.queues q).dequeuePos + 1 } :=
      ⟨rfl, le_rfl, Nat.le_succ _, fun _ _ value => value, fun _ => le_rfl⟩
    refine h.move pc q _ _ (.inr rfl) (.inr rfl) (fun slot cells returns old => ?_)
      (fun p inside => ?_) (fun p _ gone => gone) call
      (fun n call' => .inr ⟨usage.pops t n q call' call, le_rfl⟩)
      (fun n w flagged => .inr ⟨rfl, ended _⟩) (.inl rfl)
    · obtain ⟨-, seen⟩ := old rfl
      obtain ⟨cells', reads⟩ := cells.take seen
      refine ⟨evolves, slot, cells', returns.evolve evolves (fun _ => rfl) rfl rfl (fun _ _ => rfl),
        fun _ => reads, fun _ _ => ⟨rfl, rfl⟩, fun w mine => .inr fun other relies held => ?_⟩
      obtain rfl : w = (q, (s.queues q).dequeuePos) := (Option.some.inj mine).symm
      exact relies.not_head seen held
    · rcases Nat.lt_succ_iff_lt_or_eq.mp inside with before | rfl
      · exact .inr (.inr ⟨before, nofun⟩)
      · exact .inl rfl
  next => exact h.reloadPop pc call rfl rfl ended

theorem QueuesServe.read (pc : (s.threads t).pc = .popRead q pos) :
    QueuesServe actions (s.setPc t (.popRelease q pos ((s.queues q).cell pos).data)) := by
  have call : .pop t q ∈ actions := by simpa only [PcFrom, pc] using h.asked t
  refine h.turn pc q _ (.inr rfl) (.inr rfl) (fun slot cells old => ?_) (.inr rfl) rfl call
    (fun _ _ => .inl rfl) (fun n w flagged => .inr fun old => ?_)
  · obtain ⟨v, data, value⟩ := (old rfl).data cells
    exact fun _ => ⟨old rfl, by rw [data, value]⟩
  · simpa only [AtEnd, pc] using old

theorem QueuesServe.release {out : Option α} (pc : (s.threads t).pc = .popRelease q pos out) :
    QueuesServe actions (s.release t q pos out) := by
  obtain ⟨slot, cells, -, pcs⟩ := h.cells q
  have mine := pcs t
  rw [pc] at mine
  obtain ⟨-, rfl⟩ := mine rfl
  refine h.move pc q ((s.queues q).released pos _) _ (.inr rfl) (.inl rfl)
    (fun slot cells returns old => ?_) (fun p inside => ?_)
    (fun p _ gone => List.mem_append_left _ gone) trivial (fun _ _ => .inl rfl)
    (fun n w flagged => .inr ⟨rfl, fun old => ?_⟩) (.inl rfl)
  · obtain ⟨reads, -⟩ := old rfl
    refine ⟨reads.released_evolves _ cells.ring, _, cells.release reads _,
      returns.release cells reads, trivial, fun i apart => ?_,
      fun w mine => absurd mine (by simp [QueuePc.holds])⟩
    have ne := apart pos rfl
    exact ⟨by simp [released, setSequence, ne], update_of_ne ne _ _⟩
  · by_cases own : p = pos
    · subst own
      exact .inr (.inl (List.mem_append_right _ (List.mem_singleton.mpr rfl)))
    · exact .inr (.inr ⟨inside, by simpa [QueuePc.reading] using Ne.symm own⟩)
  · simpa only [AtEnd, pc, setQueue] using old

/-- Every action keeps the invariant. -/
theorem QueuesServe.act (usage : OneQueuePerThread actions)
    {a : QueueAction ι τ α} (member : a ∈ actions) (stepped : s.act a = some s') :
    QueuesServe actions s' := by
  cases a with
  | push t q v single => exact h.push usage member stepped
  | pop t q => exact h.pop member stepped
  | next t spurious =>
    simp only [QueueState.act, advance] at stepped
    split at stepped
    next => simp at stepped
    next q v single pc =>
      cases stepped
      exact h.reloadPush usage pc (by simpa only [PcFrom, pc] using h.asked t) rfl rfl
    next q v single pos pc => exact h.checkPush usage pc stepped
    next q v single pos pc =>
      cases stepped
      exact h.claimPush usage pc spurious
    next q v pos pc =>
      cases stepped
      exact h.write pc
    next q v pos pc =>
      cases stepped
      exact h.publish pc
    next q pc =>
      cases stepped
      exact h.reloadPop pc (by simpa only [PcFrom, pc] using h.asked t) rfl rfl
        (fun n old => by simpa only [AtEnd, pc] using old)
    next q pos pc => exact h.checkPop usage pc stepped
    next q pos pc =>
      cases stepped
      exact h.claimPop usage pc spurious
    next q pos pc =>
      cases stepped
      exact h.read pc
    next q pos out pc =>
      cases stepped
      exact h.release pc

end Steps

end RtRuntime
