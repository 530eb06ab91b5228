import RtRuntime.DirectedGraph
import RtRuntime.Interleaving
import RtRuntime.ListChanges

/-!
# The static phase graph

`StaticPhaseGraph::run` orders the phases of a compile-time graph with runtime overlays.  To the
declared edges it adds a barrier for every pair of phases with conflicting accesses, always from the
smaller index to the larger one, and then takes phases without unfinished predecessors until all are
done or none is left.

The run completes exactly when edges and barriers together have no cycle.  A declared order against
the indices of two conflicting phases is such a cycle.
-/

namespace RtRuntime

open List

namespace StaticPhases

/-! ## The graph -/

/-- A range of memory. -/
structure RW where
  ptr : UInt64
  bytes : UInt64
  deriving DecidableEq, Repr

/-- `overlap`.  The end of a range is computed modulo the address space. -/
def overlap (a b : RW) : Bool := a.ptr < b.ptr + b.bytes && b.ptr < a.ptr + a.bytes

structure Phase where
  reads : List RW := []
  writes : List RW := []
  deriving DecidableEq, Repr

/-- `conflict`. -/
def conflict (a b : Phase) : Bool :=
  a.writes.any (fun write => b.reads.any (overlap write) || b.writes.any (overlap write)) ||
    a.reads.any fun read => b.writes.any (overlap read)

/-- A matrix of edges. -/
abbrev Edges (n : ℕ) := Fin n → Fin n → Bool

/-- `indegree`, counted over a column of the matrix. -/
def columnCount {n : ℕ} (edges : Edges n) (node : Fin n) : ℤ :=
  (List.finRange n).countP fun other => edges other node

/-- The locals of the loop over the steps, and the phases that have run. -/
structure Progress (n : ℕ) where
  indegree : Fin n → ℤ
  done : Fin n → Bool
  order : List (Fin n)

def Progress.start {n : ℕ} (edges : Edges n) : Progress n := ⟨columnCount edges, fun _ => false, []⟩

/-- The first phase that is not done and waits for nothing. -/
def Progress.ready {n : ℕ} (progress : Progress n) : Option (Fin n) :=
  (List.finRange n).find? fun node => !progress.done node && progress.indegree node = 0

/-- The phase runs, and its successors wait for one phase less. -/
def Progress.complete {n : ℕ} (edges : Edges n) (progress : Progress n) (node : Fin n) :
    Progress n where
  indegree other :=
    if edges node other then progress.indegree other - 1 else progress.indegree other
  done := Function.update progress.done node true
  order := progress.order ++ [node]

/-- So many steps of the loop.  A loop that is stuck keeps what it has. -/
def advance {n : ℕ} (edges : Edges n) : ℕ → Progress n → Progress n × Bool
  | 0, progress => (progress, true)
  | steps + 1, progress =>
    match progress.ready with
    | none => (progress, false)
    | some node => advance edges steps (progress.complete edges node)

/-- `isAcyclic`. -/
def isAcyclic {n : ℕ} (edges : Edges n) : Bool := (advance edges n (.start edges)).2

/-- The class of the source.  Its edges are checked when it is compiled. -/
structure Graph (n : ℕ) where
  edges : Edges n
  acyclic : isAcyclic edges = true
  overlays : List (Fin n × Fin n)
  phases : Fin n → Phase

namespace Graph

variable {n : ℕ} (graph : Graph n)

/-- The edges that were declared, in the class or as an overlay. -/
def declared : Edges n := fun a b => graph.edges a b || graph.overlays.contains (a, b)

/-- The barrier between two phases with conflicting accesses. -/
def barrier : Edges n := fun a b => decide (a < b) && conflict (graph.phases a) (graph.phases b)

/-- The matrix `run` works on. -/
def combined : Edges n := fun a b => graph.declared a b || graph.barrier a b

/-- What a run has executed, and whether it ended without an exception. -/
structure Run (n : ℕ) where
  executed : List (Fin n)
  returned : Bool

/-- `run`. -/
def run : Run n :=
  let (progress, returned) := advance graph.combined n (.start graph.combined)
  ⟨progress.order, returned⟩

end Graph

/-! ## The loop -/

section Loop

variable {n : ℕ} {edges : Edges n}

/-- An edge as a proposition. -/
def Edge (edges : Edges n) (a b : Fin n) : Prop := edges a b = true

/-- What holds before every step: a phase waits for its predecessors that have not run, and a phase
that has run did so behind all of its predecessors. -/
structure Scheduled (edges : Edges n) (progress : Progress n) : Prop where
  done : ∀ node, progress.done node = true ↔ node ∈ progress.order
  nodup : progress.order.Nodup
  indegree : ∀ node, progress.indegree node =
    (List.finRange n).countP fun other => edges other node && !progress.done other
  before : ∀ pre node post, progress.order = pre ++ node :: post →
    ∀ other, Edge edges other node → other ∈ pre

theorem Scheduled.start (edges : Edges n) : Scheduled edges (.start edges) where
  done _ := by simp [Progress.start]
  nodup := nodup_nil
  indegree node := by simp [Progress.start, columnCount]
  before pre node post split := by simp [Progress.start] at split

variable {progress : Progress n}

/-- Nothing that a ready phase waits for is left. -/
theorem Scheduled.ready_spec (scheduled : Scheduled edges progress) {node : Fin n}
    (ready : progress.ready = some node) :
    node ∉ progress.order ∧ ∀ other, Edge edges other node → other ∈ progress.order := by
  have found := find?_some ready
  simp only [Bool.and_eq_true, Bool.not_eq_true', decide_eq_true_eq] at found
  obtain ⟨open_, zero⟩ := found
  rw [scheduled.indegree, Int.natCast_eq_zero, countP_eq_zero] at zero
  refine ⟨fun inside => ?_, fun other edge => ?_⟩
  · rw [(scheduled.done node).mpr inside] at open_
    cases open_
  · have closed := zero other (mem_finRange other)
    rw [edge, Bool.true_and, Bool.not_eq_true', Bool.not_eq_false] at closed
    exact (scheduled.done other).mp closed

/-- A step keeps what holds before it. -/
theorem Scheduled.complete (scheduled : Scheduled edges progress) {node : Fin n}
    (fresh : node ∉ progress.order)
    (waits : ∀ other, Edge edges other node → other ∈ progress.order) :
    Scheduled edges (progress.complete edges node) where
  done other := by
    by_cases same : other = node
    · simp [Progress.complete, same]
    · simp [Progress.complete, scheduled.done other, same]
  nodup := by
    rw [Progress.complete, nodup_append_comm]
    exact nodup_cons.mpr ⟨fresh, scheduled.nodup⟩
  indegree other := by
    have notDone : progress.done node = false := by
      rw [← Bool.not_eq_true, scheduled.done]
      exact fresh
    have count := countP_update (nodup_finRange n) (mem_finRange node)
      (fun before => edges before other && !progress.done before)
      (fun before => edges before other && !(progress.complete edges node).done before)
      fun before _ ne => by simp [Progress.complete, ne]
    simp only [Progress.complete, scheduled.indegree, notDone, Function.update_self] at count ⊢
    grind
  before pre other post split := by
    rcases concat_split split with ⟨rfl, rfl, -⟩ | ⟨rest, -, order⟩
    · exact waits
    · exact scheduled.before pre other rest order

/-- The loop is stuck before all phases have run only on a cycle. -/
theorem Scheduled.not_acyclic (scheduled : Scheduled edges progress)
    (short : progress.order.length < n) (stuck : progress.ready = none) :
    ¬ Acyclic (Edge edges) := by
  have fewer : progress.order.toFinset.card < (Finset.univ : Finset (Fin n)).card := by
    rw [Finset.card_fin]
    exact (toFinset_card_le _).trans_lt short
  obtain ⟨node, -, left⟩ := Finset.exists_mem_notMem_of_card_lt_card fewer
  have left : (Finset.univ.filter fun node => node ∉ progress.order).Nonempty :=
    ⟨node, by simpa using left⟩
  refine exists_cycle_of_stuck left fun node member => ?_
  rw [Finset.mem_filter] at member
  have closed := find?_eq_none.mp stuck node (mem_finRange node)
  have open_ : progress.done node = false := by
    rw [← Bool.not_eq_true, scheduled.done]
    exact member.2
  simp only [open_, Bool.not_false, Bool.true_and, decide_eq_true_eq] at closed
  rw [scheduled.indegree, Int.natCast_eq_zero, countP_eq_zero] at closed
  push Not at closed
  obtain ⟨other, -, waiting⟩ := closed
  rw [Bool.and_eq_true, Bool.not_eq_true', ← Bool.not_eq_true, scheduled.done] at waiting
  exact ⟨other, by simpa using waiting.2, waiting.1⟩

/-- A whole loop: it takes all its steps, or meets a cycle. -/
theorem Scheduled.advance (steps : ℕ) : ∀ {progress : Progress n}, Scheduled edges progress →
    progress.order.length + steps ≤ n →
    Scheduled edges (advance edges steps progress).1 ∧
      ((advance edges steps progress).2 = true →
        (advance edges steps progress).1.order.length = progress.order.length + steps) ∧
      ((advance edges steps progress).2 = false → ¬ Acyclic (Edge edges)) := by
  induction steps with
  | zero => exact fun scheduled _ => ⟨scheduled, fun _ => rfl, nofun⟩
  | succ steps loop =>
    intro progress scheduled short
    rw [StaticPhases.advance]
    cases ready : progress.ready with
    | none => exact ⟨scheduled, nofun, fun _ => scheduled.not_acyclic (by omega) ready⟩
    | some node =>
      obtain ⟨fresh, waits⟩ := scheduled.ready_spec ready
      have grown : (progress.complete edges node).order.length = progress.order.length + 1 := by
        simp [Progress.complete]
      obtain ⟨kept, full, cyclic⟩ := loop (scheduled.complete fresh waits) (by omega)
      exact ⟨kept, fun returned => by rw [full returned, grown]; omega, cyclic⟩

/-- The loop returns exactly without a cycle, and then it has listed all phases behind their
predecessors. -/
theorem advance_spec (edges : Edges n) :
    ((advance edges n (.start edges)).2 = true ↔ Acyclic (Edge edges)) ∧
      ((advance edges n (.start edges)).2 = true →
        IsTopoOrder (finRange n) (Edge edges) (advance edges n (.start edges)).1.order) := by
  obtain ⟨scheduled, full, cyclic⟩ := (Scheduled.start edges).advance n (by simp [Progress.start])
  have ordered (returned : (advance edges n (.start edges)).2 = true) :
      IsTopoOrder (finRange n) (Edge edges) (advance edges n (.start edges)).1.order := by
    refine ⟨?_, scheduled.before⟩
    have inside := scheduled.nodup.subperm fun node _ => mem_finRange node
    refine inside.perm_of_length_le ?_
    rw [full returned, length_finRange]
    exact Nat.le_add_left _ _
  refine ⟨⟨fun returned => ?_, fun acyclic => ?_⟩, ordered⟩
  · exact (ordered returned).acyclic fun _ node _ => mem_finRange node
  · by_contra threw
    exact cyclic (Bool.not_eq_true _ ▸ threw) acyclic

end Loop

/-! ## Runs -/

namespace Graph

variable {n : ℕ} (graph : Graph n)

/-- A phase comes before another in a run. -/
def Precedes (a b : Fin n) : Prop := graph.run.executed.idxOf a < graph.run.executed.idxOf b

/-- A run returns if declared edges and barriers together have no cycle.  It executes every phase
once, behind all phases that were declared to come first, and two phases with conflicting accesses in
the order of their indices. -/
theorem run_ordered (acyclic : Acyclic (Edge graph.combined)) :
    graph.run.returned = true ∧ graph.run.executed.Perm (List.finRange n) ∧
      (∀ a b, Edge graph.declared a b → graph.Precedes a b) ∧
      ∀ a b, a < b → conflict (graph.phases a) (graph.phases b) = true → graph.Precedes a b := by
  have returned := (advance_spec graph.combined).1.mpr acyclic
  have ordered := (advance_spec graph.combined).2 returned
  have precedes {a b : Fin n} (edge : Edge graph.combined a b) : graph.Precedes a b :=
    ordered.idxOf_lt edge (mem_finRange b)
  refine ⟨returned, ordered.perm, fun a b edge => precedes ?_, fun a b less clash => precedes ?_⟩
  · rw [Edge] at edge
    rw [Edge, combined, edge, Bool.true_or]
  · rw [Edge, combined, barrier, clash, decide_eq_true less, Bool.and_true, Bool.or_true]

/-- Otherwise it throws. -/
theorem run_throws_iff : graph.run.returned = false ↔ ¬ Acyclic (Edge graph.combined) := by
  rw [← (advance_spec graph.combined).1, Bool.not_eq_true]
  rfl

end Graph

/-! ## A declared order against the indices -/

/-- Two phases that write the same eight bytes, with an overlay from the second to the first. -/
def reversedWriters : Graph 2 where
  edges _ _ := false
  acyclic := by decide
  overlays := [(1, 0)]
  phases _ := { writes := [⟨4096, 8⟩] }

/-- The same two phases, declared in the order of their indices. -/
def orderedWriters : Graph 2 where
  edges a b := a = 0 && b = 1
  acyclic := by decide
  overlays := []
  phases _ := { writes := [⟨4096, 8⟩] }

/-- The declared order is acyclic, and the run throws before the first phase. -/
theorem reversed_writers_throw : Acyclic (Edge reversedWriters.declared) ∧
    reversedWriters.run.returned = false ∧ reversedWriters.run.executed = [] := by
  refine ⟨?_, by decide, by decide⟩
  exact (advance_spec reversedWriters.declared).1.mp (by decide)

theorem run_ordered_writers : Acyclic (Edge orderedWriters.combined) ∧
    orderedWriters.Precedes 0 1 := by
  have acyclic := (advance_spec orderedWriters.combined).1.mp (by decide)
  exact ⟨acyclic, (Graph.run_ordered orderedWriters acyclic).2.2.2 0 1 (by decide) (by decide)⟩

end StaticPhases

end RtRuntime

