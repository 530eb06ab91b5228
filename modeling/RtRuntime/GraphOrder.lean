import RtRuntime.CompiledGraph

/-!
# Kahn's loop computes the least topological order

The recorded edges are read back from the dependency list
(`graphEdges_successors`, `graphEdges_predecessors`); the inner loop of Kahn's
algorithm subtracts one multiplicity per recorded edge (`foldl_decrement`); and
`KahnInv` is the invariant of the outer loop. At its end the heap is empty, so the
candidate order is complete exactly on acyclic graphs and then lexicographically
least (`candidateOrder_complete_iff`, `candidateOrder_least`).
-/

namespace RtRuntime

open KahnState List

/-! ## The recorded edges -/

/-- The dependency relation on registration indices. -/
def Precedes (dependencies : List GraphDependency) (a b : ℕ) : Prop :=
  ∃ d ∈ dependencies, d.prerequisite.index = a ∧ d.dependent.index = b

/-- The edges recorded by a run of the first loop that no check stopped. -/
def graphEdges (dependencies : List GraphDependency) : GraphEdges :=
  dependencies.foldl GraphEdges.add {}

variable (dependencies : List GraphDependency)

theorem recordDependencies_eq_ok {graphOwner : UInt32} {phaseCount : ℕ} {edges : GraphEdges} :
    recordDependencies graphOwner phaseCount dependencies = .ok edges ↔
      (∀ d ∈ dependencies, d.prerequisite.belongs graphOwner phaseCount = true ∧
        d.dependent.belongs graphOwner phaseCount = true) ∧
      edges = graphEdges dependencies := by
  unfold recordDependencies graphEdges
  rw [foldlM_check_eq_ok]
  simp [checkDependency]

theorem Adjacency.push_apply (adjacency : Adjacency) (key value a : ℕ) :
    adjacency.push key value a = if a = key then adjacency a ++ [value] else adjacency a := by
  unfold Adjacency.push
  by_cases h : a = key
  · subst h; simp
  · simp [h]

theorem graphEdges_successors (a : ℕ) : (graphEdges dependencies).successors a =
    (dependencies.filter (fun d => d.prerequisite.index = a)).map (·.dependent.index) := by
  unfold graphEdges
  induction dependencies using reverseRecOn with
  | nil => rfl
  | append_singleton l d ih =>
    simp only [foldl_append, foldl_cons, foldl_nil, GraphEdges.add,
      Adjacency.push_apply, ih, filter_append, map_append]
    by_cases h : a = d.prerequisite.index
    · simp [h]
    · simp [h, Ne.symm h]

theorem graphEdges_predecessors (b : ℕ) : (graphEdges dependencies).predecessors b =
    (dependencies.filter (fun d => d.dependent.index = b)).map (·.prerequisite.index) := by
  unfold graphEdges
  induction dependencies using reverseRecOn with
  | nil => rfl
  | append_singleton l d ih =>
    simp only [foldl_append, foldl_cons, foldl_nil, GraphEdges.add,
      Adjacency.push_apply, ih, filter_append, map_append]
    by_cases h : b = d.dependent.index
    · simp [h]
    · simp [h, Ne.symm h]

theorem graphEdges_indegree (b : ℕ) :
    (graphEdges dependencies).indegree b = ((graphEdges dependencies).predecessors b).length := by
  unfold graphEdges
  induction dependencies using reverseRecOn with
  | nil => rfl
  | append_singleton l d ih =>
    rw [foldl_append, foldl_cons, foldl_nil]
    simp only [GraphEdges.add, Adjacency.push_apply, Function.update_apply]
    by_cases h : b = d.dependent.index
    · subst h; simp [ih]
    · simp [h, ih]

variable {dependencies}

theorem mem_successors {a b : ℕ} :
    b ∈ (graphEdges dependencies).successors a ↔ Precedes dependencies a b := by
  rw [graphEdges_successors]
  simp [Precedes, and_assoc]

theorem mem_predecessors {a b : ℕ} :
    a ∈ (graphEdges dependencies).predecessors b ↔ Precedes dependencies a b := by
  rw [graphEdges_predecessors]
  simp only [mem_map, mem_filter, decide_eq_true_eq, Precedes, and_assoc]
  exact exists_congr fun d => and_congr_right fun _ => and_comm

/-- An edge is recorded as often among the successors as among the predecessors. -/
theorem count_successors (a b : ℕ) :
    ((graphEdges dependencies).successors a).count b =
      ((graphEdges dependencies).predecessors b).count a := by
  rw [graphEdges_successors, graphEdges_predecessors, count, count, countP_map,
    countP_map, countP_filter, countP_filter]
  refine countP_congr fun d _ => ?_
  simp [and_comm]

/-! ## The loop over the successors -/

/-- What the loop over the successors of one phase does: it lowers each indegree
by the number of edges and moves the phases that reach zero into the heap. -/
structure Decremented (l : List ℕ) (s s' : KahnState) : Prop where
  indegree : ∀ q, s'.indegree q = s.indegree q - l.count q
  order : s'.order = s.order
  sorted : s'.ready.Pairwise (· ≤ ·)
  nodup : s'.ready.Nodup
  mem_ready : ∀ q, q ∈ s'.ready ↔ q ∈ s.ready ∨ (q ∈ l ∧ s.indegree q = l.count q)

variable {s : KahnState}

theorem foldl_decrement (l : List ℕ) (hle : ∀ q, l.count q ≤ s.indegree q)
    (hsorted : s.ready.Pairwise (· ≤ ·)) (hnodup : s.ready.Nodup) (hfresh : ∀ q ∈ s.ready, q ∉ l) :
    Decremented l s (l.foldl decrement s) := by
  induction l using reverseRecOn with
  | nil => exact ⟨by simp, rfl, hsorted, hnodup, by simp⟩
  | append_singleton l a ih =>
    simp only [count_append] at hle
    have h := ih (fun q => le_of_add_le_left (hle q)) fun q hq hl =>
      hfresh q hq (mem_append_left _ hl)
    have ha := hle a
    rw [count_singleton_self] at ha
    rw [foldl_append, foldl_cons, foldl_nil]
    generalize l.foldl decrement s = t at h ⊢
    have hind := h.indegree a
    -- an edge of `a` was left, so it was not in the heap yet
    have hnot : a ∉ t.ready := by
      rw [h.mem_ready]
      rintro (hr | ⟨-, hc⟩)
      · exact hfresh a hr (mem_append_right _ mem_cons_self)
      · omega
    have hpos : t.indegree a ≠ 0 := by omega
    simp only [decrement, wrappingPred, if_neg hpos]
    refine ⟨fun q => ?_, h.order, ?_, ?_, fun q => ?_⟩
    · simp only [count_append, Function.update_apply]
      split_ifs with hq
      · rw [hq, hind, count_singleton_self, Nat.sub_sub]
      · rw [h.indegree, count_singleton, if_neg (by simpa using Ne.symm hq), Nat.add_zero]
    · split_ifs
      · exact h.sorted.orderedInsert a _
      · exact h.sorted
    · split_ifs
      · exact (perm_orderedInsert _ a _).nodup_iff.mpr (nodup_cons.mpr ⟨hnot, h.nodup⟩)
      · exact h.nodup
    · rw [count_append, mem_append, mem_singleton]
      by_cases hq : q = a
      · subst hq
        have hr : q ∉ s.ready := fun hr => hfresh q hr (mem_append_right _ mem_cons_self)
        rw [count_singleton_self]
        split_ifs
        · simp only [mem_orderedInsert, true_or, or_true, true_and, true_iff]
          omega
        · simp only [hnot, hr, or_true, true_and, false_or, false_iff]
          omega
      · have hold : q ∈ (if t.indegree a - 1 = 0 then t.ready.orderedInsert (· ≤ ·) a else t.ready) ↔
            q ∈ t.ready := by
          split_ifs
          · rw [mem_orderedInsert, or_iff_right hq]
          · rfl
        rw [hold, h.mem_ready, count_singleton, if_neg (by simpa using Ne.symm hq), or_iff_left hq,
          Nat.add_zero]

/-! ## The outer loop -/

/-- Predecessors not yet listed, before and after listing `p`. -/
theorem countP_notMem_append (l order : List ℕ) {p : ℕ} (hp : p ∉ order) :
    l.countP (· ∉ order) = l.countP (· ∉ order ++ [p]) + l.count p := by
  induction l with
  | nil => rfl
  | cons a l ih =>
    simp only [countP_cons, count_cons, ih]
    by_cases hap : a = p
    · subst hap
      simp [hp]
      omega
    · by_cases ha : a ∈ order
      · simp [ha, hap]
      · simp [ha, hap]
        omega

/-- The invariant of Kahn's loop over `phaseCount` phases. -/
structure KahnInv (phaseCount : ℕ) (predecessors : Adjacency) (s : KahnState) : Prop where
  nodup : (s.order ++ s.ready).Nodup
  lt : ∀ v ∈ s.order ++ s.ready, v < phaseCount
  sorted : s.ready.Pairwise (· ≤ ·)
  /-- the indegree counts the recorded edges from phases not yet listed -/
  indegree : ∀ v, s.indegree v = (predecessors v).countP (· ∉ s.order)
  /-- a phase is listed or ready as soon as no such edge is left -/
  mem : ∀ v < phaseCount, s.indegree v = 0 → v ∈ s.order ++ s.ready
  ready_zero : ∀ v ∈ s.ready, s.indegree v = 0
  /-- predecessors are listed first -/
  before : ∀ pre b post, s.order = pre ++ b :: post → ∀ a ∈ predecessors b, a ∈ pre
  /-- every listed phase was the smallest available one -/
  greedy : ∀ pre x post, s.order = pre ++ x :: post →
    ∀ y < phaseCount, y ∉ pre → (∀ a ∈ predecessors y, a ∈ pre) → x ≤ y

variable {predecessors : Adjacency} {n : ℕ}

/-- No unlisted predecessor is left exactly when the indegree is zero. -/
theorem KahnInv.indegree_eq_zero (h : KahnInv n predecessors s) {v : ℕ} :
    s.indegree v = 0 ↔ ∀ a ∈ predecessors v, a ∈ s.order := by
  rw [h.indegree, countP_eq_zero]
  simp

theorem KahnInv.order_zero (h : KahnInv n predecessors s) {v : ℕ} (hv : v ∈ s.order) :
    s.indegree v = 0 := by
  obtain ⟨pre, post, hl⟩ := append_of_mem hv
  refine h.indegree_eq_zero.mpr fun a ha => ?_
  rw [hl]
  exact mem_append_left _ (h.before pre v post hl a ha)

theorem kahnInv_start (phaseCount : ℕ) :
    KahnInv phaseCount (graphEdges dependencies).predecessors
      (kahnStart phaseCount (graphEdges dependencies)) where
  nodup := nodup_range.filter _
  lt := by simp +contextual [kahnStart]
  sorted := (pairwise_le_range).filter _
  indegree := by
    intro v
    simp [kahnStart, graphEdges_indegree]
  mem := by simp +contextual [kahnStart]
  ready_zero := by simp [kahnStart]
  before := by
    intro pre b post h
    simp [kahnStart] at h
  greedy := by
    intro pre b post h
    simp [kahnStart] at h

variable {phase : ℕ}

/-- The recorded edges of `v` from unlisted phases, split at the phase taken next. -/
theorem KahnInv.indegree_split (h : KahnInv n (graphEdges dependencies).predecessors s)
    (hphase : phase ∉ s.order) (v : ℕ) :
    s.indegree v =
      ((graphEdges dependencies).predecessors v).countP (· ∉ s.order ++ [phase]) +
        ((graphEdges dependencies).successors phase).count v := by
  rw [h.indegree, countP_notMem_append _ _ hphase, count_successors]

theorem KahnInv.phase_notMem {rest : List ℕ} (h : KahnInv n predecessors s)
    (hready : s.ready = phase :: rest) :
    phase ∉ s.order := by
  intro hp
  have hnd := h.nodup
  rw [hready, nodup_append] at hnd
  exact hnd.2.2 phase hp phase mem_cons_self rfl

/-- The loop over the successors of the phase taken meets its specification. -/
theorem KahnInv.decremented {rest : List ℕ} (h : KahnInv n (graphEdges dependencies).predecessors s)
    (hready : s.ready = phase :: rest) :
    Decremented ((graphEdges dependencies).successors phase)
      { s with ready := rest, order := s.order ++ [phase] }
      (((graphEdges dependencies).successors phase).foldl decrement
        { s with ready := rest, order := s.order ++ [phase] }) := by
  have hsplit := h.indegree_split (h.phase_notMem hready)
  have hsorted := h.sorted
  have hnd := (nodup_append.mp h.nodup).2.1
  rw [hready] at hsorted hnd
  refine foldl_decrement _ ?_ (pairwise_cons.mp hsorted).2 (nodup_cons.mp hnd).2 ?_
  · intro q
    change _ ≤ s.indegree q
    rw [hsplit q]
    omega
  · intro q hq hl
    have h0 := h.ready_zero q (by rw [hready]; exact mem_cons_of_mem _ hq)
    have := count_pos_iff.mpr hl
    rw [hsplit q] at h0
    omega

section Run

variable {n : ℕ} (hrange : ∀ a b, Precedes dependencies a b → a < n ∧ b < n)
include hrange

/-- One turn of the loop keeps the invariant. -/
theorem KahnInv.step {rest : List ℕ} (h : KahnInv n (graphEdges dependencies).predecessors s)
    (hready : s.ready = phase :: rest) :
    KahnInv n (graphEdges dependencies).predecessors
      (((graphEdges dependencies).successors phase).foldl decrement
        { s with ready := rest, order := s.order ++ [phase] }) := by
  have hdec := h.decremented hready
  generalize ((graphEdges dependencies).successors phase).foldl decrement
    { s with ready := rest, order := s.order ++ [phase] } = s' at hdec ⊢
  have hphase := h.phase_notMem hready
  have hsplit := h.indegree_split hphase
  have horder : s'.order = s.order ++ [phase] := hdec.order
  have listed : s.order ++ s.ready = s'.order ++ rest := by
    rw [horder, hready, append_assoc]
    rfl
  have hind : ∀ v, s'.indegree v =
      ((graphEdges dependencies).predecessors v).countP (· ∉ s.order ++ [phase]) := by
    intro v
    rw [hdec.indegree]
    change s.indegree v - _ = _
    rw [hsplit v]
    omega
  have hmem : ∀ v, v ∈ s'.ready ↔ v ∈ rest ∨
      (v ∈ (graphEdges dependencies).successors phase ∧
        s.indegree v = ((graphEdges dependencies).successors phase).count v) := hdec.mem_ready
  -- a phase that enters the heap now still had an edge, so it was neither listed nor ready
  have hnew : ∀ v, v ∈ (graphEdges dependencies).successors phase →
      s.indegree v = ((graphEdges dependencies).successors phase).count v → v ∉ s'.order := by
    intro v hv hcount
    have hpos : s.indegree v ≠ 0 := by
      have := count_pos_iff.mpr hv
      omega
    rw [horder, mem_append, mem_singleton]
    rintro (ho | rfl)
    · exact hpos (h.order_zero ho)
    · exact hpos (h.ready_zero v (by rw [hready]; exact mem_cons_self))
  have hnd := h.nodup
  have hlt := h.lt
  rw [listed] at hnd hlt
  refine ⟨?_, ?_, hdec.sorted, ?_, ?_, ?_, ?_, ?_⟩
  · obtain ⟨hndo, -, hdisj⟩ := nodup_append.mp hnd
    refine nodup_append.mpr ⟨hndo, hdec.nodup, fun a ha b hb => ?_⟩
    rcases (hmem b).mp hb with hr | ⟨hs, hc⟩
    · exact hdisj a ha b hr
    · exact ne_of_mem_of_not_mem ha (hnew b hs hc)
  · -- in range
    intro v hv
    rw [mem_append, hmem] at hv
    rcases hv with ho | hr | ⟨hs, -⟩
    · exact hlt v (mem_append_left _ ho)
    · exact hlt v (mem_append_right _ hr)
    · exact (hrange _ _ (mem_successors.mp hs)).2
  · intro v
    rw [hind, horder]
  · -- complete: a phase at zero was at zero before, or its last edges were these
    intro v hv h0
    rw [mem_append, hmem]
    by_cases hz : s.indegree v = 0
    · have := h.mem v hv hz
      rw [listed, mem_append] at this
      exact this.imp_right .inl
    · rw [hind] at h0
      have hc := hsplit v
      rw [h0, Nat.zero_add] at hc
      exact Or.inr (Or.inr ⟨count_pos_iff.mp (by omega), hc⟩)
  · intro v hv
    rw [hdec.indegree]
    change s.indegree v - _ = 0
    rcases (hmem v).mp hv with hr | ⟨-, hc⟩
    · have := h.ready_zero v (by rw [hready]; exact mem_cons_of_mem _ hr)
      omega
    · omega
  · intro pre b post hl a ha
    rw [horder] at hl
    rcases concat_split hl with ⟨rfl, rfl, -⟩ | ⟨post', -, hl'⟩
    · exact h.indegree_eq_zero.mp (h.ready_zero _ (by rw [hready]; exact mem_cons_self)) a ha
    · exact h.before pre b post' hl' a ha
  · intro pre x post hl y hy hyp hav
    rw [horder] at hl
    rcases concat_split hl with ⟨rfl, rfl, -⟩ | ⟨post', -, hl'⟩
    · -- `y` is available, hence in the heap, whose head was taken
      have hyr := h.mem y hy (h.indegree_eq_zero.mpr hav)
      rw [hready, mem_append, mem_cons] at hyr
      have hsorted := h.sorted
      rw [hready, pairwise_cons] at hsorted
      rcases hyr with ho | rfl | hr
      · exact absurd ho hyp
      · exact le_rfl
      · exact hsorted.1 y hr
    · exact h.greedy pre x post' hl' y hy hyp hav

/-- A run with fuel for the phases not yet listed keeps the invariant and empties the heap. -/
theorem kahnLoop_spec (fuel : ℕ) : ∀ s : KahnState,
    KahnInv n (graphEdges dependencies).predecessors s → n ≤ s.order.length + fuel →
    KahnInv n (graphEdges dependencies).predecessors
        (kahnLoop (graphEdges dependencies).successors fuel s) ∧
      (kahnLoop (graphEdges dependencies).successors fuel s).ready = [] := by
  induction fuel with
  | zero =>
    intro s h hfuel
    refine ⟨h, ?_⟩
    have hsub : (s.order ++ s.ready) ⊆ range n := fun v hv => mem_range.mpr (h.lt v hv)
    have hlen := (subperm_of_subset h.nodup hsub).length_le
    rw [length_append, length_range] at hlen
    change s.ready = []
    exact length_eq_zero_iff.mp (by omega)
  | succ fuel ih =>
    intro s h hfuel
    rw [kahnLoop]
    cases hr : s.ready with
    | nil => exact ⟨h, hr⟩
    | cons phase rest =>
      -- the phases that are decremented do not change the order
      refine ih _ (h.step hrange hr) (foldlRecOn (motive := fun t : KahnState =>
        n ≤ t.order.length + fuel) _ _ ?_ fun _ bound _ _ => bound)
      rw [length_append, length_singleton]
      omega

/-- The candidate order of a recorded graph, with the invariant at the end of the loop. -/
theorem candidateOrder_spec : ∃ s : KahnState,
    s.order = candidateOrder n (graphEdges dependencies) ∧ s.ready = [] ∧
      KahnInv n (graphEdges dependencies).predecessors s := by
  have h := kahnLoop_spec hrange n (kahnStart n (graphEdges dependencies)) (kahnInv_start n)
    (by simp [kahnStart])
  exact ⟨_, rfl, h.2, h.1⟩

/-- A complete candidate order is the least topological order. -/
theorem candidateOrder_least
    (hlen : (candidateOrder n (graphEdges dependencies)).length = n) :
    IsLeastTopoOrder (range n) (Precedes dependencies)
      (candidateOrder n (graphEdges dependencies)) := by
  obtain ⟨s, ho, -, h⟩ := candidateOrder_spec hrange
  rw [← ho] at hlen ⊢
  have hnd : s.order.Nodup := (nodup_append.mp h.nodup).1
  have hsub : s.order ⊆ range n := fun v hv =>
    mem_range.mpr (h.lt v (mem_append_left _ hv))
  have hperm : s.order.Perm (range n) :=
    (subperm_of_subset hnd hsub).perm_of_length_le (by rw [length_range, hlen])
  have htopo : IsTopoOrder (range n) (Precedes dependencies) s.order :=
    ⟨hperm, fun pre b post hl a hE => h.before pre b post hl a (mem_predecessors.mpr hE)⟩
  refine htopo.least_of_greedy nodup_range fun pre x post hl y hy hyp hav => ?_
  exact h.greedy pre x post hl y (mem_range.mp hy) hyp
    fun a ha => hav a (mem_predecessors.mp ha)

/-- The candidate order is complete exactly on acyclic graphs: with an empty heap, every
phase left over has a predecessor left over. -/
theorem candidateOrder_complete_iff :
    (candidateOrder n (graphEdges dependencies)).length = n ↔ Acyclic (Precedes dependencies) := by
  refine ⟨fun hlen => ?_, fun hacyclic => ?_⟩
  · exact (candidateOrder_least hrange hlen).1.acyclic
      fun a b hE => mem_range.mpr (hrange a b hE).2
  · obtain ⟨s, ho, hr, h⟩ := candidateOrder_spec hrange
    rw [← ho]
    refine length_eq_of_acyclic (nodup_append.mp h.nodup).1
      (fun v hv => h.lt v (mem_append_left _ hv)) (fun b hbn hbo => ?_) hacyclic
    have hpos : ¬ s.indegree b = 0 := by
      intro h0
      have := h.mem b hbn h0
      rw [hr, append_nil] at this
      exact hbo this
    rw [h.indegree_eq_zero] at hpos
    push Not at hpos
    obtain ⟨a, ha, hao⟩ := hpos
    have hE := mem_predecessors.mp ha
    exact ⟨a, (hrange a b hE).1, hao, hE⟩

end Run

end RtRuntime
