import Mathlib.Data.Nat.Size
import Mathlib.Data.Nat.Bitwise
import Mathlib.Tactic
import RtRuntime.Interleaving

/-!
# The bounded queue of jobs

`BoundedMPMCQueue` keeps a ring of cells.  The sequence number of a cell tells a producer and a
consumer whose turn it is: a producer at position `p` may write when the number is `p`, a consumer
at position `p` may read when it is `p + 1`, and the consumer leaves `p + size` behind for the
producer of the next lap.  Positions only grow; they are counted in `ℕ`, as are the sequence
numbers, since a run would need `2 ^ 63` operations before a machine word made a difference.

Two positions are kept for each thread and not for each queue: `enqueueCache_` and
`dequeueCache_` are static, so every instance with the same element type shares them.
-/

namespace RtRuntime

section Capacity

/-- `nextPow2`: the bits of `x - 1` are spread downwards, then one is added. -/
def nextPow2 (x : UInt64) : UInt64 :=
  let x := x - 1
  let x := x ||| x >>> 1
  let x := x ||| x >>> 2
  let x := x ||| x >>> 4
  let x := x ||| x >>> 8
  let x := x ||| x >>> 16
  let x := x ||| x >>> 32
  x + 1

/-- The number of cells a queue constructed with `capacityPow2` has. -/
def queueSize (capacityPow2 : UInt64) : ℕ :=
  (nextPow2 (if capacityPow2 = 0 then 1 else capacityPow2)).toNat

/-- Bit `i` of `z` says whether `y` has a bit among the `width` bits from `i` upwards. -/
def Spread (width y z : ℕ) : Prop :=
  ∀ i, z.testBit i = true ↔ ∃ j, i ≤ j ∧ j < i + width ∧ y.testBit j = true

theorem Spread.one (y : ℕ) : Spread 1 y y := by
  intro i
  constructor
  · exact fun set => ⟨i, le_rfl, by omega, set⟩
  · rintro ⟨j, low, high, set⟩
    rwa [show i = j by omega]

theorem Spread.double {width y z : ℕ} (twice : ℕ) (sum : width + width = twice)
    (h : Spread width y z) : Spread twice y (z ||| z >>> width) := by
  subst sum
  intro i
  rw [Nat.testBit_or, Nat.testBit_shiftRight, Bool.or_eq_true, h i, h (width + i)]
  constructor
  · rintro (⟨j, low, high, set⟩ | ⟨j, low, high, set⟩)
    · exact ⟨j, low, by omega, set⟩
    · exact ⟨j, by omega, by omega, set⟩
  · rintro ⟨j, low, high, set⟩
    rcases Nat.lt_or_ge j (i + width) with near | far
    · exact .inl ⟨j, low, near, set⟩
    · exact .inr ⟨j, by omega, by omega, set⟩

/-- Bits spread over the whole word fill every place up to the highest bit. -/
theorem Spread.eq_ones {y z : ℕ} (word : y < 2 ^ 64) (h : Spread 64 y z) :
    z = 2 ^ y.size - 1 := by
  refine Nat.eq_of_testBit_eq fun i => ?_
  rw [Nat.testBit_two_pow_sub_one, Bool.eq_iff_iff, h i, decide_eq_true_iff, Nat.lt_size]
  constructor
  · rintro ⟨j, low, -, set⟩
    by_contra small
    have below : y < 2 ^ j := (not_le.mp small).trans_le (Nat.pow_le_pow_right (by omega) low)
    simp [Nat.testBit_lt_two_pow below] at set
  · intro large
    obtain ⟨j, low, set⟩ := Nat.exists_ge_and_testBit_of_ge_two_pow large
    refine ⟨j, low, ?_, set⟩
    by_contra high
    have below : y < 2 ^ j := word.trans_le (Nat.pow_le_pow_right (by omega) (by omega))
    simp [Nat.testBit_lt_two_pow below] at set

theorem nextPow2_toNat {x : UInt64} (positive : 1 ≤ x) (fits : x ≤ 0x8000000000000000) :
    (nextPow2 x).toNat = 2 ^ (x.toNat - 1).size := by
  have low : 1 ≤ x.toNat := by simpa [UInt64.le_iff_toNat_le] using positive
  have high : x.toNat ≤ 2 ^ 63 := by simpa [UInt64.le_iff_toNat_le] using fits
  have start : (x - 1).toNat = x.toNat - 1 := by
    rw [UInt64.toNat_sub_of_le _ _ positive]
    rfl
  have spread := (Spread.one (x.toNat - 1)).double 2 rfl |>.double 4 rfl |>.double 8 rfl
    |>.double 16 rfl |>.double 32 rfl |>.double 64 rfl
  have ones := Spread.eq_ones (by omega) spread
  have width : (x.toNat - 1).size ≤ 63 := Nat.size_le.mpr (by omega)
  have bound : 2 ^ (x.toNat - 1).size ≤ 2 ^ 63 := Nat.pow_le_pow_right (by omega) width
  have one_le : 1 ≤ 2 ^ (x.toNat - 1).size := Nat.one_le_two_pow
  simp only [nextPow2, UInt64.toNat_add, UInt64.toNat_or, UInt64.toNat_shiftRight, start]
  simp only [show (1 : UInt64).toNat % 64 = 1 by rfl, show (2 : UInt64).toNat % 64 = 2 by rfl,
    show (4 : UInt64).toNat % 64 = 4 by rfl, show (8 : UInt64).toNat % 64 = 8 by rfl,
    show (16 : UInt64).toNat % 64 = 16 by rfl, show (32 : UInt64).toNat % 64 = 32 by rfl]
  rw [ones]
  simp only [show (1 : UInt64).toNat = 1 by rfl]
  omega

/-- A capacity argument that the ring can serve: at least two cells, and a power of two that a
machine word holds. -/
def ServableCapacity (capacityPow2 : UInt64) : Prop :=
  2 ≤ capacityPow2 ∧ capacityPow2 ≤ 0x8000000000000000

instance (capacityPow2 : UInt64) : Decidable (ServableCapacity capacityPow2) :=
  inferInstanceAs (Decidable (_ ∧ _))

theorem queueSize_of_servable {capacityPow2 : UInt64} (h : ServableCapacity capacityPow2) :
    ∃ k, 1 ≤ k ∧ k ≤ 63 ∧ queueSize capacityPow2 = 2 ^ k ∧ capacityPow2.toNat ≤ 2 ^ k := by
  have two : 2 ≤ capacityPow2.toNat := by simpa [UInt64.le_iff_toNat_le] using h.1
  have high : capacityPow2.toNat ≤ 2 ^ 63 := by simpa [UInt64.le_iff_toNat_le] using h.2
  have positive : 1 ≤ capacityPow2 := by
    simp only [UInt64.le_iff_toNat_le]
    exact le_trans (by decide) two
  have nonzero : capacityPow2 ≠ 0 := by
    rintro rfl
    exact absurd two (by decide)
  refine ⟨(capacityPow2.toNat - 1).size, ?_, ?_, ?_, ?_⟩
  · exact Nat.size_pos.mpr (by omega)
  · exact Nat.size_le.mpr (by omega)
  · rw [queueSize, if_neg nonzero, nextPow2_toNat positive h.2]
  · have := Nat.lt_size_self (capacityPow2.toNat - 1)
    omega

end Capacity

section Model

variable {ι τ α : Type*}

structure QueueCell (α : Type*) where
  sequence : ℕ
  data : Option α
  deriving DecidableEq, Repr

/-- What has happened to one queue so far: the values in the order in which their positions were
claimed, and the pushes and pops that have returned `true`, each with its position. -/
structure QueueHistory (α : Type*) where
  claimed : List α
  pushed : List (ℕ × α)
  popped : List (ℕ × Option α)
  deriving DecidableEq, Repr

/-- One instance of `BoundedMPMCQueue`. -/
structure JobQueue (α : Type*) where
  size : ℕ
  cells : ℕ → QueueCell α
  enqueuePos : ℕ
  dequeuePos : ℕ
  history : QueueHistory α

def JobQueue.create (capacityPow2 : UInt64) : JobQueue α where
  size := queueSize capacityPow2
  cells i := { sequence := i, data := none }
  enqueuePos := 0
  dequeuePos := 0
  history := { claimed := [], pushed := [], popped := [] }

def JobQueue.mask (q : JobQueue α) : ℕ := (q.size + 2 ^ 64 - 1) % 2 ^ 64

def JobQueue.index (q : JobQueue α) (pos : ℕ) : ℕ := pos &&& q.mask

def JobQueue.cell (q : JobQueue α) (pos : ℕ) : QueueCell α := q.cells (q.index pos)

def JobQueue.setSequence (q : JobQueue α) (pos sequence : ℕ) : JobQueue α :=
  { q with
    cells := Function.update q.cells (q.index pos) { q.cell pos with sequence := sequence } }

def JobQueue.setData (q : JobQueue α) (pos : ℕ) (data : Option α) : JobQueue α :=
  { q with cells := Function.update q.cells (q.index pos) { q.cell pos with data := data } }

/-- Where a thread stands inside `try_push` or `try_pop`: one constructor for each access to
shared memory that comes next. -/
inductive QueuePc (ι α : Type*)
  | idle
  | pushReload (q : ι) (v : α) (singleProducer : Bool)
  | pushCheck (q : ι) (v : α) (singleProducer : Bool) (pos : ℕ)
  | pushClaim (q : ι) (v : α) (singleProducer : Bool) (pos : ℕ)
  | pushWrite (q : ι) (v : α) (pos : ℕ)
  | pushPublish (q : ι) (v : α) (pos : ℕ)
  | popReload (q : ι)
  | popCheck (q : ι) (pos : ℕ)
  | popClaim (q : ι) (pos : ℕ)
  | popRead (q : ι) (pos : ℕ)
  | popRelease (q : ι) (pos : ℕ) (out : Option α)
  deriving DecidableEq, Repr

structure QueueThread (ι α : Type*) where
  pc : QueuePc ι α
  enqueueCache : ℕ
  dequeueCache : ℕ

structure QueueState (ι τ α : Type*) where
  queues : ι → JobQueue α
  threads : τ → QueueThread ι α

/-- What a thread can be asked to do next: begin a call, or take the next step of the call it is
in.  A weak compare-exchange may fail although the value is the expected one. -/
inductive QueueAction (ι τ α : Type*)
  | push (t : τ) (q : ι) (v : α) (singleProducer : Bool)
  | pop (t : τ) (q : ι)
  | next (t : τ) (spurious : Bool)
  deriving DecidableEq, Repr

def QueueState.start (capacity : ι → UInt64) : QueueState ι τ α where
  queues q := JobQueue.create (capacity q)
  threads _ := { pc := .idle, enqueueCache := 0, dequeueCache := 0 }

variable [DecidableEq ι] [DecidableEq τ]
variable (s : QueueState ι τ α)

def QueueState.setThread (t : τ) (thread : QueueThread ι α) :
    QueueState ι τ α :=
  { s with threads := Function.update s.threads t thread }

def QueueState.setPc (t : τ) (pc : QueuePc ι α) : QueueState ι τ α :=
  s.setThread t { s.threads t with pc := pc }

def QueueState.setQueue (q : ι) (queue : JobQueue α) :
    QueueState ι τ α :=
  { s with queues := Function.update s.queues q queue }

/-- The loop of `try_push` looks at the cell of its position.  An empty ring has no cell to look
at, and the access is outside the vector. -/
def QueueState.checkPush (t : τ) (q : ι) (v : α) (singleProducer : Bool)
    (pos : ℕ) : Option (QueueState ι τ α) :=
  let queue := s.queues q
  if queue.index pos < queue.size then
    if (queue.cell pos).sequence = pos then
      some (s.setPc t (.pushClaim q v singleProducer pos))
    else if (queue.cell pos).sequence < pos then
      some (s.setThread t { s.threads t with pc := .idle, enqueueCache := pos })
    else
      some (s.setPc t (.pushReload q v singleProducer))
  else
    none

/-- The producer takes its position: by a plain store when it is the only one, otherwise by a
compare-exchange that reloads the position when it fails. -/
def QueueState.claimPush (t : τ) (q : ι) (v : α) (singleProducer : Bool)
    (pos : ℕ) (spurious : Bool) : QueueState ι τ α :=
  let queue := s.queues q
  if singleProducer ∨ (queue.enqueuePos = pos ∧ ¬ spurious) then
    (s.setQueue q
      { queue with
        enqueuePos := pos + 1
        history := { queue.history with claimed := queue.history.claimed ++ [v] } }).setThread t
      { s.threads t with pc := .pushWrite q v pos, enqueueCache := pos + 1 }
  else
    s.setPc t (.pushCheck q v singleProducer queue.enqueuePos)

def QueueState.checkPop (t : τ) (q : ι) (pos : ℕ) :
    Option (QueueState ι τ α) :=
  let queue := s.queues q
  if queue.index pos < queue.size then
    if (queue.cell pos).sequence = pos + 1 then
      some (s.setPc t (.popClaim q pos))
    else if (queue.cell pos).sequence < pos + 1 then
      some (s.setThread t { s.threads t with pc := .idle, dequeueCache := pos })
    else
      some (s.setPc t (.popReload q))
  else
    none

def QueueState.claimPop (t : τ) (q : ι) (pos : ℕ) (spurious : Bool) :
    QueueState ι τ α :=
  let queue := s.queues q
  if queue.dequeuePos = pos ∧ ¬ spurious then
    (s.setQueue q { queue with dequeuePos := pos + 1 }).setThread t
      { s.threads t with pc := .popRead q pos, dequeueCache := pos + 1 }
  else
    s.setPc t (.popCheck q queue.dequeuePos)

def QueueState.publish (t : τ) (q : ι) (v : α) (pos : ℕ) :
    QueueState ι τ α :=
  let queue := s.queues q
  (s.setQueue q
    { queue.setSequence pos (pos + 1) with
      history := { queue.history with pushed := queue.history.pushed ++ [(pos, v)] } }).setPc t
    .idle

def QueueState.release (t : τ) (q : ι) (pos : ℕ) (out : Option α) :
    QueueState ι τ α :=
  let queue := s.queues q
  (s.setQueue q
    { queue.setSequence pos (pos + queue.size) with
      history := { queue.history with popped := queue.history.popped ++ [(pos, out)] } }).setPc t
    .idle

/-- One step of the thread `t` in the call it is in. -/
def QueueState.advance (t : τ) (spurious : Bool) :
    Option (QueueState ι τ α) :=
  match (s.threads t).pc with
  | .idle => none
  | .pushReload q v singleProducer =>
    some (s.setPc t (.pushCheck q v singleProducer (s.queues q).enqueuePos))
  | .pushCheck q v singleProducer pos => s.checkPush t q v singleProducer pos
  | .pushClaim q v singleProducer pos => some (s.claimPush t q v singleProducer pos spurious)
  | .pushWrite q v pos =>
    some ((s.setQueue q ((s.queues q).setData pos (some v))).setPc t (.pushPublish q v pos))
  | .pushPublish q v pos => some (s.publish t q v pos)
  | .popReload q => some (s.setPc t (.popCheck q (s.queues q).dequeuePos))
  | .popCheck q pos => s.checkPop t q pos
  | .popClaim q pos => some (s.claimPop t q pos spurious)
  | .popRead q pos => some (s.setPc t (.popRelease q pos ((s.queues q).cell pos).data))
  | .popRelease q pos out => some (s.release t q pos out)

/-- One action: a call begins from the thread's cached position, except that `try_push` without
the flag loads the shared one. -/
def QueueState.act : QueueAction ι τ α → Option (QueueState ι τ α)
  | .push t q v singleProducer =>
    match (s.threads t).pc with
    | .idle =>
      some (s.setPc t (if singleProducer then
        .pushCheck q v singleProducer (s.threads t).enqueueCache
      else .pushReload q v singleProducer))
    | _ => none
  | .pop t q =>
    match (s.threads t).pc with
    | .idle => some (s.setPc t (.popCheck q (s.threads t).dequeueCache))
    | _ => none
  | .next t spurious => s.advance t spurious

end Model

end RtRuntime
