import RtRuntime.Basic
import RtRuntime.Checks
import RtRuntime.DirectedGraph

/-!
# The graph compiler

`compile_graph` orders the phases of a graph. It records the dependency edges,
runs Kahn's algorithm with a min-heap of ready phases, names a phase on a cycle
when some phase never becomes ready, and then demands that any two phases that
touch one resource, one of them writing it, are ordered by a dependency path.

The vectors of the source are functions of the index here, the heap is the
ascending list of its elements, and a stack is the list of its elements with the
top first. Every loop is structurally recursive on a fuel argument; the fuel
given is proved to be enough together with the loop's specification.
-/

namespace RtRuntime

/-! ## Inputs and results -/

/-- `ResourceAccess`; a code outside the enumeration is `unknown`. -/
inductive ResourceAccess where
  | read
  | write
  | unknown (code : UInt8)
  deriving DecidableEq, Repr

structure GraphDependency where
  prerequisite : PhaseHandle
  dependent : PhaseHandle
  deriving DecidableEq, Repr

structure GraphResourceAccess where
  phase : PhaseHandle
  resource : ResourceHandle
  access : ResourceAccess
  deriving DecidableEq, Repr

structure GraphCompileDiagnostic where
  status : Status := .ok
  firstPhase : PhaseHandle := {}
  secondPhase : PhaseHandle := {}
  resource : ResourceHandle := {}
  deriving DecidableEq, Repr

/-- `Adjacency`: the neighbours of each phase index, in the order recorded. -/
abbrev Adjacency := ℕ → List ℕ

/-! ## Recording the edges -/

structure GraphEdges where
  successors : Adjacency := fun _ => []
  predecessors : Adjacency := fun _ => []
  indegree : ℕ → ℕ := fun _ => 0

variable (graphOwner : UInt32)

/-- A handle of this graph, in range. -/
def PhaseHandle.belongs (phaseCount : ℕ) (p : PhaseHandle) : Bool :=
  p.valid && p.owner = graphOwner && p.index < phaseCount

def ResourceHandle.belongs (resourceCount : ℕ) (r : ResourceHandle) : Bool :=
  r.valid && r.owner = graphOwner && r.index < resourceCount

def checkDependency (phaseCount : ℕ) (d : GraphDependency) :
    Except GraphCompileDiagnostic Unit :=
  reject (!(d.prerequisite.belongs graphOwner phaseCount) ||
      !(d.dependent.belongs graphOwner phaseCount))
    { status := .invalidHandle, firstPhase := d.prerequisite, secondPhase := d.dependent }

/-- Append `value` to the neighbours of `key`. -/
def Adjacency.push (adjacency : Adjacency) (key value : ℕ) : Adjacency :=
  Function.update adjacency key (adjacency key ++ [value])

def GraphEdges.add (edges : GraphEdges) (d : GraphDependency) : GraphEdges where
  successors := edges.successors.push d.prerequisite.index d.dependent.index
  predecessors := edges.predecessors.push d.dependent.index d.prerequisite.index
  indegree := Function.update edges.indegree d.dependent.index
    (edges.indegree d.dependent.index + 1)

/-- The loop over the dependencies: each is checked, then recorded. -/
def recordDependencies (phaseCount : ℕ)
    (dependencies : List GraphDependency) : Except GraphCompileDiagnostic GraphEdges :=
  dependencies.foldlM
    (fun edges d => do
      checkDependency graphOwner phaseCount d
      return edges.add d) {}

/-! ## Kahn's loop -/

structure KahnState where
  indegree : ℕ → ℕ
  /-- the heap, ascending -/
  ready : List ℕ
  /-- indices of `candidate_order` -/
  order : List ℕ

/-- `--indegree[successor]` on an unsigned word. -/
def wrappingPred (n : ℕ) : ℕ := if n = 0 then u64Max else n - 1

/-- One turn of the loop over the successors of the phase taken. -/
def KahnState.decrement (s : KahnState) (successor : ℕ) : KahnState :=
  let remaining := wrappingPred (s.indegree successor)
  { s with
    indegree := Function.update s.indegree successor remaining
    ready := if remaining = 0 then s.ready.orderedInsert (· ≤ ·) successor else s.ready }

/-- `while (!ready.empty())`. -/
def kahnLoop (successors : Adjacency) : ℕ → KahnState → KahnState
  | 0, s => s
  | fuel + 1, s =>
    match s.ready with
    | [] => s
    | phase :: rest =>
      kahnLoop successors fuel
        ((successors phase).foldl KahnState.decrement
          { s with ready := rest, order := s.order ++ [phase] })

/-- The heap before the loop: the phases without prerequisite. -/
def kahnStart (phaseCount : ℕ) (edges : GraphEdges) : KahnState where
  indegree := edges.indegree
  ready := (List.range phaseCount).filter (fun phase => edges.indegree phase = 0)
  order := []

def candidateOrder (phaseCount : ℕ) (edges : GraphEdges) : List ℕ :=
  (kahnLoop edges.successors phaseCount (kahnStart phaseCount edges)).order

/-! ## Naming a phase on a cycle -/

structure CycleSearch where
  color : ℕ → ℕ := fun _ => 0
  nextSuccessor : ℕ → ℕ := fun _ => 0
  depthFirstStack : List ℕ := []

/-- One turn of the depth-first loop; the error is the phase met a second time. -/
def CycleSearch.step (successors : Adjacency) (s : CycleSearch) (phase : ℕ) (rest : List ℕ) :
    Except ℕ CycleSearch :=
  if s.nextSuccessor phase = (successors phase).length then
    .ok { s with color := Function.update s.color phase 2, depthFirstStack := rest }
  else
    let successor := (successors phase).getD (s.nextSuccessor phase) 0
    let advanced :=
      { s with nextSuccessor := Function.update s.nextSuccessor phase (s.nextSuccessor phase + 1) }
    if s.color successor = 1 then .error successor
    else if s.color successor = 0 then
      .ok { advanced with
        color := Function.update s.color successor 1
        depthFirstStack := successor :: s.depthFirstStack }
    else .ok advanced

def CycleSearch.loop (successors : Adjacency) : ℕ → CycleSearch → Except ℕ CycleSearch
  | 0, s => .ok s
  | fuel + 1, s =>
    match s.depthFirstStack with
    | [] => .ok s
    | phase :: rest => do
      let s' ← s.step successors phase rest
      CycleSearch.loop successors fuel s'

/-- The search from one root. -/
def CycleSearch.fromRoot (successors : Adjacency) (fuel : ℕ) (s : CycleSearch) (root : ℕ) :
    Except ℕ CycleSearch :=
  if s.color root ≠ 0 then .ok s
  else CycleSearch.loop successors fuel
    { s with color := Function.update s.color root 1, depthFirstStack := [root] }

/-- The diagnostic of a graph whose candidate order is incomplete. -/
def cycleDiagnostic (phaseCount dependencyCount : ℕ)
    (successors : Adjacency) : GraphCompileDiagnostic :=
  match (List.range phaseCount).foldlM
      (CycleSearch.fromRoot successors (dependencyCount + phaseCount)) {} with
  | .error phase =>
    { status := .graphCycle, firstPhase := PhaseHandle.make graphOwner (UInt32.ofNat phase) }
  | .ok _ => { status := .internalError }

/-! ## Resource conflicts -/

def checkAccess (phaseCount resourceCount : ℕ) (a : GraphResourceAccess) :
    Except GraphCompileDiagnostic Unit :=
  reject (!(a.phase.belongs graphOwner phaseCount) ||
      !(a.resource.belongs graphOwner resourceCount) ||
      (a.access ≠ .read && a.access ≠ .write))
    { status := .invalidHandle, firstPhase := a.phase, resource := a.resource }

/-- The order of `access_order`: by resource index, then by phase index. -/
def accessLe (a b : GraphResourceAccess) : Bool :=
  if a.resource.index ≠ b.resource.index then a.resource.index < b.resource.index
  else a.phase.index ≤ b.phase.index

/-- `visited` and `stack` of `mark_reachable`. -/
structure MarkState where
  visited : ℕ → ℕ
  stack : List ℕ

def MarkState.visit (visitToken : ℕ) (s : MarkState) (adjacent : ℕ) : MarkState :=
  if s.visited adjacent = visitToken then s
  else
    { visited := Function.update s.visited adjacent visitToken
      stack := adjacent :: s.stack }

def markLoop (adjacency : Adjacency) (visitToken : ℕ) : ℕ → MarkState → MarkState
  | 0, s => s
  | fuel + 1, s =>
    match s.stack with
    | [] => s
    | phase :: rest =>
      markLoop adjacency visitToken fuel
        ((adjacency phase).foldl (MarkState.visit visitToken) { s with stack := rest })

/-- `mark_reachable`, on `phaseCount` marks. -/
def markReachable (phaseCount start : ℕ) (adjacency : Adjacency) (visited : ℕ → ℕ)
    (visitToken : ℕ) : ℕ → ℕ :=
  (markLoop adjacency visitToken phaseCount
    { visited := Function.update visited start visitToken, stack := [start] }).visited

/-- The marks shared by all reachability queries. -/
structure ReachState where
  reachableAfter : ℕ → ℕ := fun _ => 0
  reachableBefore : ℕ → ℕ := fun _ => 0
  visitToken : ℕ := 0

/-- A fresh token; the marks are cleared when the tokens are used up. -/
def ReachState.nextToken (s : ReachState) : ReachState :=
  if s.visitToken = u64Max then { visitToken := 1 } else { s with visitToken := s.visitToken + 1 }

/-- Both searches from one writing phase. -/
def ReachState.mark (phaseCount : ℕ) (edges : GraphEdges) (s : ReachState) (phase : ℕ) :
    ReachState :=
  let t := s.nextToken
  { t with
    reachableAfter :=
      markReachable phaseCount phase edges.successors t.reachableAfter t.visitToken
    reachableBefore :=
      markReachable phaseCount phase edges.predecessors t.reachableBefore t.visitToken }

/-- The comparison of one writer with another access of its resource. -/
def checkOther (s : ReachState) (writer other : GraphResourceAccess) :
    Except GraphCompileDiagnostic Unit :=
  reject (writer.phase ≠ other.phase ∧ s.reachableAfter other.phase.index ≠ s.visitToken ∧
      s.reachableBefore other.phase.index ≠ s.visitToken)
    { status := .resourceConflict, firstPhase := writer.phase, secondPhase := other.phase,
      resource := writer.resource }

/-- One writer of a resource against the whole group of accesses of the resource. -/
def checkWriter (phaseCount : ℕ) (edges : GraphEdges) (group : List GraphResourceAccess)
    (s : ReachState) (writer : GraphResourceAccess) :
    Except GraphCompileDiagnostic ReachState :=
  if writer.access ≠ .write then .ok s
  else do
    let marked := s.mark phaseCount edges writer.phase.index
    forM group (checkOther marked writer)
    return marked

/-- `while (resource_begin < access_order.size())`: one group of equal resources a turn. -/
def checkConflicts (phaseCount : ℕ) (edges : GraphEdges) :
    ℕ → List GraphResourceAccess → ReachState → Except GraphCompileDiagnostic Unit
  | 0, _, _ => .ok ()
  | _ + 1, [], _ => .ok ()
  | fuel + 1, first :: rest, s => do
    let group := first :: rest.takeWhile (fun a => a.resource = first.resource)
    let s' ← group.foldlM (checkWriter phaseCount edges group) s
    checkConflicts phaseCount edges fuel
      (rest.dropWhile (fun a => a.resource = first.resource)) s'

/-! ## The compiler -/

/-- The body of `compile_graph`: the candidate order, or the diagnostic returned. -/
def compileOrder (phaseCount resourceCount : ℕ)
    (dependencies : List GraphDependency) (accesses : List GraphResourceAccess) :
    Except GraphCompileDiagnostic (List PhaseHandle) := do
  reject (phaseCount > graphHandleIndexMask.toNat ∨ resourceCount > graphHandleIndexMask.toNat)
    { status := .capacityExceeded }
  let edges ← recordDependencies graphOwner phaseCount dependencies
  let order := candidateOrder phaseCount edges
  reject (order.length ≠ phaseCount)
    (cycleDiagnostic graphOwner phaseCount dependencies.length edges.successors)
  forM accesses (checkAccess graphOwner phaseCount resourceCount)
  checkConflicts phaseCount edges accesses.length (accesses.mergeSort accessLe) {}
  return order.map fun phase => PhaseHandle.make graphOwner (UInt32.ofNat phase)

structure GraphCompileResult where
  status : Status
  outputOrder : List PhaseHandle
  diagnostic : GraphCompileDiagnostic
  deriving DecidableEq, Repr

/-- `compile_graph`. The output is transactional: `outputOrder` is replaced only
when the complete graph validates. -/
def compileGraph (phaseCount resourceCount : ℕ)
    (dependencies : List GraphDependency) (accesses : List GraphResourceAccess)
    (outputOrder : List PhaseHandle) : GraphCompileResult :=
  match compileOrder graphOwner phaseCount resourceCount dependencies accesses with
  | .ok candidate => ⟨.ok, candidate, {}⟩
  | .error diagnostic => ⟨diagnostic.status, outputOrder, diagnostic⟩

end RtRuntime
