import RtRuntime.GraphOrder

/-!
# Naming a phase on a cycle

The search behind the `graph_cycle` diagnostic colours a phase 1 while it is on the stack and 2 when
all its successors are done.  The stack is a path, so a successor of the top that is on it lies on a
cycle, and every path from a phase that is done ends.  A search that met no cycle would have finished
every phase, and there would be none.
-/

namespace RtRuntime

open Function List Relation

namespace CycleSearch

section Search

variable (n : ℕ) (successors : Adjacency)

/-- What holds between two turns.  A successor that was looked at is done or is above on the
stack. -/
structure Inv (s : CycleSearch) : Prop where
  next : ∀ v, s.nextSuccessor v ≤ (successors v).length
  white : ∀ v, s.color v = 0 → s.nextSuccessor v = 0
  gray : ∀ v, s.color v = 1 ↔ v ∈ s.depthFirstStack
  inside : ∀ v ∈ s.depthFirstStack, v < n
  path : s.depthFirstStack.Pairwise fun b a =>
    a ≠ b ∧ TransGen (fun a b => b ∈ successors a) a b
  looked : ∀ above v below, s.depthFirstStack = above ++ v :: below →
    ∀ b ∈ (successors v).take (s.nextSuccessor v), 2 ≤ s.color b ∨ b ∈ above
  black : ∀ v, 2 ≤ s.color v → Acc (fun b a => b ∈ successors a) v

/-- The turns that the loop can still take. -/
def turns (s : CycleSearch) : ℕ :=
  ∑ v ∈ Finset.range n,
    ((successors v).length - s.nextSuccessor v + if 2 ≤ s.color v then 0 else 1)

variable {n successors} {s s' : CycleSearch} {phase : ℕ} {rest : List ℕ}

theorem turns_lt (inside : phase < n) (next : s.nextSuccessor ≤ s'.nextSuccessor)
    (color : s.color ≤ s'.color)
    (less : s.nextSuccessor phase < s'.nextSuccessor phase ∧
        s.nextSuccessor phase < (successors phase).length ∨
      s.color phase < 2 ∧ 2 ≤ s'.color phase) :
    s'.turns n successors < s.turns n successors := by
  have next (v : ℕ) : s.nextSuccessor v ≤ s'.nextSuccessor v := next v
  have color (v : ℕ) : s.color v ≤ s'.color v := color v
  refine Finset.sum_lt_sum (fun v _ => ?_) ⟨phase, Finset.mem_range.mpr inside, ?_⟩
  · have := next v
    have := color v
    split_ifs <;> omega
  · have := next phase
    have := color phase
    split_ifs <;> omega

/-- A phase enters the stack.  Those below may have just looked at it. -/
theorem Inv.enter {k : ℕ → ℕ} (h : Inv n successors s) (next : ∀ v, k v ≤ (successors v).length)
    (white : ∀ v, s.color v = 0 → k v = 0) (fresh : s.color phase = 0) (inside : phase < n)
    (reaches : ∀ v ∈ s.depthFirstStack, TransGen (fun a b => b ∈ successors a) v phase)
    (looked : ∀ above v below, s.depthFirstStack = above ++ v :: below →
      ∀ b ∈ (successors v).take (k v), (2 ≤ s.color b ∨ b ∈ above) ∨ b = phase) :
    Inv n successors ⟨update s.color phase 1, k, phase :: s.depthFirstStack⟩ := by
  have grows : s.color ≤ update s.color phase 1 := le_update_self_iff.mpr (by omega)
  have new : phase ∉ s.depthFirstStack := by
    rw [← h.gray]
    omega
  refine ⟨next, ?_, ?_, forall_mem_cons.mpr ⟨inside, h.inside⟩,
    pairwise_cons.mpr ⟨fun v member => ⟨ne_of_mem_of_not_mem member new, reaches v member⟩,
      h.path⟩, fun above v below split b member => ?_, ?_⟩
  · exact (forall_update_iff s.color fun v c => c = 0 → _).mpr ⟨nofun, fun v _ => white v⟩
  · refine (forall_update_iff s.color fun v c => c = 1 ↔ v ∈ _).mpr ⟨?_, fun v ne => ?_⟩
    · exact iff_of_true rfl mem_cons_self
    · rw [h.gray, mem_cons, or_iff_right ne]
  · cases above with
    | nil =>
      obtain ⟨rfl, -⟩ := cons.inj split
      simp [white phase fresh] at member
    | cons x above =>
      obtain ⟨rfl, old⟩ := cons.inj split
      rcases looked above v below old b member with (done | passed) | rfl
      · exact .inl (done.trans (grows b))
      · exact .inr (mem_cons_of_mem _ passed)
      · exact .inr mem_cons_self
  · exact (forall_update_iff s.color fun v c => 2 ≤ c → Acc _ v).mpr
      ⟨by omega, fun v _ => h.black v⟩

/-- A turn finds a phase on a cycle, or leaves one turn less to take. -/
theorem Inv.step (range : ∀ a, ∀ b ∈ successors a, b < n) (h : Inv n successors s)
    (top : s.depthFirstStack = phase :: rest) :
    Ensures (s.step successors phase rest)
      (fun s' => Inv n successors s' ∧ s'.turns n successors < s.turns n successors ∧
        s.color ≤ s'.color)
      fun found => found < n ∧ TransGen (fun a b => b ∈ successors a) found found := by
  have gray : s.color phase = 1 := (h.gray phase).mpr (top ▸ mem_cons_self)
  have inside : phase < n := h.inside phase (top ▸ mem_cons_self)
  obtain ⟨lower, below⟩ := pairwise_cons.mp (top ▸ h.path)
  unfold CycleSearch.step
  split
  next all =>
    have grows : s.color ≤ update s.color phase 2 := le_update_self_iff.mpr (by omega)
    refine ⟨⟨h.next, ?_, ?_, fun v member => h.inside v (top ▸ mem_cons_of_mem _ member), below,
      fun above v below (split : rest = _) b member => ?_, ?_⟩,
      turns_lt inside le_rfl grows (.inr ⟨by omega, by simp⟩), grows⟩
    · exact (forall_update_iff s.color fun v c => c = 0 → _).mpr ⟨nofun, fun v _ => h.white v⟩
    · refine (forall_update_iff s.color fun v c => c = 1 ↔ v ∈ rest).mpr ⟨?_, fun v ne => ?_⟩
      · exact ⟨nofun, fun member => absurd rfl (lower phase member).1⟩
      · rw [h.gray, top, mem_cons, or_iff_right ne]
    · rcases h.looked (phase :: above) v below (by rw [top, split]; rfl) b member with done | passed
      · exact .inl (done.trans (grows b))
      · rcases mem_cons.mp passed with rfl | passed
        · exact .inl (by simp)
        · exact .inr passed
    · refine (forall_update_iff s.color fun v c => 2 ≤ c → Acc _ v).mpr
        ⟨fun _ => ⟨_, fun b edge => h.black b ?_⟩, fun v _ => h.black v⟩
      exact (h.looked [] phase rest top b (by rwa [all, take_length])).resolve_right not_mem_nil
  next more =>
    have low : s.nextSuccessor phase < (successors phase).length :=
      lt_of_le_of_ne (h.next phase) more
    obtain ⟨successor, here⟩ : ∃ b, (successors phase)[s.nextSuccessor phase]? = some b :=
      ⟨_, getElem?_eq_getElem low⟩
    have edge : successor ∈ successors phase := mem_of_getElem? here
    have reaches : ∀ v ∈ s.depthFirstStack, TransGen (fun a b => b ∈ successors a) v successor :=
      top ▸ forall_mem_cons.mpr ⟨.single edge, fun v member => (lower v member).2.tail edge⟩
    have advances : s.nextSuccessor ≤
        update s.nextSuccessor phase (s.nextSuccessor phase + 1) :=
      le_update_self_iff.mpr (Nat.le_succ _)
    have next := (forall_update_iff s.nextSuccessor fun v k => k ≤ (successors v).length).mpr
      ⟨low, fun v _ => h.next v⟩
    have white : ∀ v, s.color v = 0 →
        update s.nextSuccessor phase (s.nextSuccessor phase + 1) v = 0 :=
      (forall_update_iff s.nextSuccessor fun v k => s.color v = 0 → k = 0).mpr
        ⟨fun white => by omega, fun v _ => h.white v⟩
    have fewer {s' : CycleSearch} (moved : s'.nextSuccessor =
        update s.nextSuccessor phase (s.nextSuccessor phase + 1)) (color : s.color ≤ s'.color) :
        s'.turns n successors < s.turns n successors := by
      refine turns_lt inside (moved ▸ advances) color (.inl ⟨?_, low⟩)
      rw [moved, update_self]
      exact Nat.lt_succ_self _
    -- of the successors that were looked at, only this one is new
    have looked (above : List ℕ) (v : ℕ) (below : List ℕ)
        (split : s.depthFirstStack = above ++ v :: below) (b : ℕ) (member : b ∈ (successors v).take
          (update s.nextSuccessor phase (s.nextSuccessor phase + 1) v)) :
        (2 ≤ s.color b ∨ b ∈ above) ∨ b = successor := by
      by_cases same : v = phase
      · subst same
        rw [update_self, take_add_one, here, mem_append, Option.toList_some, mem_singleton] at member
        exact member.imp_left (h.looked above v below split b)
      · rw [update_of_ne same] at member
        exact .inl (h.looked above v below split b member)
    rw [getD_eq_getElem?_getD, here, Option.getD_some]
    dsimp only
    split
    next onStack =>
      exact ⟨range phase successor edge, reaches successor ((h.gray successor).mp onStack)⟩
    next =>
      split
      next fresh =>
        have grows : s.color ≤ update s.color successor 1 := le_update_self_iff.mpr (by omega)
        exact ⟨h.enter next white fresh (range phase successor edge) reaches looked,
          fewer rfl grows, grows⟩
      next =>
        refine ⟨⟨next, white, h.gray, h.inside, h.path, fun above v below split b member => ?_,
          h.black⟩, fewer rfl le_rfl, le_rfl⟩
        refine (looked above v below split b member).elim id fun same => .inl ?_
        subst same
        show 2 ≤ s.color b
        omega

/-- While a phase is on the stack there is a turn to take. -/
theorem Inv.turns_pos (h : Inv n successors s) (top : s.depthFirstStack = phase :: rest) :
    0 < s.turns n successors := by
  have gray : s.color phase = 1 := (h.gray phase).mpr (top ▸ mem_cons_self)
  have fewer : CycleSearch.turns n successors { s with color := update s.color phase 2 } <
      s.turns n successors :=
    turns_lt (h.inside phase (top ▸ mem_cons_self)) le_rfl (le_update_self_iff.mpr (by omega))
      (.inr ⟨by omega, by simp⟩)
  omega

section

variable (range : ∀ a, ∀ b ∈ successors a, b < n)
include range

/-- With fuel for the turns left, the loop finds a phase on a cycle or empties the stack, and more
fuel changes nothing. -/
theorem Inv.loop (fuel : ℕ) : ∀ {s : CycleSearch},
    Inv n successors s → s.turns n successors ≤ fuel →
    Ensures (CycleSearch.loop successors fuel s)
      (fun s' => Inv n successors s' ∧ s'.depthFirstStack = [] ∧ s.color ≤ s'.color)
      (fun found => found < n ∧ TransGen (fun a b => b ∈ successors a) found found) ∧
    ∀ more, CycleSearch.loop successors (fuel + more) s = CycleSearch.loop successors fuel s := by
  induction fuel with
  | zero =>
    intro s h enough
    cases top : s.depthFirstStack with
    | nil =>
      refine ⟨⟨h, top, le_rfl⟩, fun more => ?_⟩
      cases more with
      | zero => rfl
      | succ more => simp only [CycleSearch.loop, top]
    | cons phase rest =>
      have := h.turns_pos top
      omega
  | succ fuel ih =>
    intro s h enough
    simp only [Nat.succ_add, CycleSearch.loop]
    split
    next empty => exact ⟨⟨h, empty, le_rfl⟩, fun _ => rfl⟩
    next phase rest top =>
      have turn := h.step range top
      constructor
      · refine turn.bind fun s' ⟨kept, fewer, grows⟩ => ?_
        exact (ih kept (by omega)).1.mono
          (fun t ⟨inv, empty, more⟩ => ⟨inv, empty, grows.trans more⟩) fun _ => id
      · intro more
        cases result : s.step successors phase rest with
        | error found => rfl
        | ok s' =>
          obtain ⟨kept, fewer, -⟩ := turn.of_ok result
          exact (ih kept (by omega)).2 more

theorem Inv.fromRoot {root fuel : ℕ} (enough : ∀ s : CycleSearch, s.turns n successors ≤ fuel)
    (h : Inv n successors s) (empty : s.depthFirstStack = []) (inside : root < n) :
    Ensures (s.fromRoot successors fuel root)
      (fun s' => Inv n successors s' ∧ s'.depthFirstStack = [] ∧ s.color ≤ s'.color ∧
        s'.color root ≠ 0)
      (fun found => found < n ∧ TransGen (fun a b => b ∈ successors a) found found) ∧
    ∀ more, s.fromRoot successors (fuel + more) root = s.fromRoot successors fuel root := by
  unfold CycleSearch.fromRoot
  split
  next entered => exact ⟨⟨h, empty, le_rfl, entered⟩, fun _ => rfl⟩
  next fresh =>
    have white : s.color root = 0 := not_not.mp fresh
    have grows : s.color ≤ update s.color root 1 := le_update_self_iff.mpr (by omega)
    have start := h.enter h.next h.white white inside (by simp [empty]) (by simp [empty])
    rw [empty] at start
    obtain ⟨ends, same⟩ := start.loop range fuel (enough _)
    refine ⟨ends.mono (fun s' ⟨inv, empty, more⟩ => ?_) fun _ => id, same⟩
    have entered : update s.color root 1 root ≤ s'.color root := more root
    rw [update_self] at entered
    exact ⟨inv, empty, grows.trans more, by omega⟩

/-- The loop over the roots. -/
theorem Inv.roots {fuel : ℕ} (enough : ∀ s : CycleSearch, s.turns n successors ≤ fuel)
    {roots : List ℕ} (inside : ∀ root ∈ roots, root < n) : ∀ {s : CycleSearch},
    Inv n successors s → s.depthFirstStack = [] →
    Ensures (roots.foldlM (CycleSearch.fromRoot successors fuel) s)
      (fun s' => Inv n successors s' ∧ s'.depthFirstStack = [] ∧ s.color ≤ s'.color ∧
        ∀ root ∈ roots, s'.color root ≠ 0)
      (fun found => found < n ∧ TransGen (fun a b => b ∈ successors a) found found) ∧
    ∀ more, roots.foldlM (CycleSearch.fromRoot successors (fuel + more)) s =
      roots.foldlM (CycleSearch.fromRoot successors fuel) s := by
  induction roots with
  | nil => exact fun h empty => ⟨⟨h, empty, le_rfl, nofun⟩, fun _ => rfl⟩
  | cons root roots ih =>
    intro s h empty
    obtain ⟨first, inside⟩ := forall_mem_cons.mp inside
    obtain ⟨searched, same⟩ := h.fromRoot range enough empty first
    have rest {s' : CycleSearch} := ih inside (s := s')
    simp only [foldlM_cons, same]
    constructor
    · refine searched.bind fun s' ⟨kept, drained, grows, entered⟩ => ?_
      refine (rest kept drained).1.mono (fun t ⟨inv, empty, more, all⟩ => ?_) fun _ => id
      refine ⟨inv, empty, grows.trans more, forall_mem_cons.mpr ⟨?_, all⟩⟩
      have : s'.color root ≤ t.color root := more root
      omega
    · intro more
      cases result : s.fromRoot successors fuel root with
      | error found => rfl
      | ok s' =>
        obtain ⟨kept, drained, -⟩ := searched.of_ok result
        exact (rest kept drained).2 more

end

end Search

end CycleSearch

variable {dependencies : List GraphDependency} {n : ℕ}

/-- Each dependency is an entry of one successor list. -/
theorem sum_length_successors (dependencies : List GraphDependency) (n : ℕ) :
    ∑ v ∈ Finset.range n, ((graphEdges dependencies).successors v).length ≤ dependencies.length := by
  simp only [graphEdges_successors, length_map, ← countP_eq_length_filter]
  induction dependencies with
  | nil => simp
  | cons d rest ih =>
    simp only [countP_cons, Finset.sum_add_distrib, length_cons, decide_eq_true_eq,
      Finset.sum_ite_eq]
    split <;> omega

theorem CycleSearch.turns_le (s : CycleSearch) :
    s.turns n (graphEdges dependencies).successors ≤ dependencies.length + n := by
  have each : s.turns n (graphEdges dependencies).successors ≤
      ∑ v ∈ Finset.range n, (((graphEdges dependencies).successors v).length + 1) := by
    refine Finset.sum_le_sum fun v _ => ?_
    split <;> omega
  rw [Finset.sum_add_distrib, Finset.sum_const, Finset.card_range, smul_eq_mul, mul_one] at each
  exact each.trans (Nat.add_le_add_right (sum_length_successors dependencies n) n)

/-- On a graph with a cycle the search names a phase on a cycle, and with more fuel the same. -/
theorem roots_eq_error (hrange : ∀ a b, Precedes dependencies a b → a < n ∧ b < n)
    (hcyclic : ¬ Acyclic (Precedes dependencies)) :
    ∃ phase < n, TransGen (Precedes dependencies) phase phase ∧
      ∀ fuel ≥ dependencies.length + n, (range n).foldlM
        (CycleSearch.fromRoot (graphEdges dependencies).successors fuel) {} = .error phase := by
  have edges : (fun a b => b ∈ (graphEdges dependencies).successors a) = Precedes dependencies :=
    funext₂ fun a b => propext mem_successors
  have inside : ∀ a, ∀ b ∈ (graphEdges dependencies).successors a, b < n :=
    fun a b edge => (hrange a b (mem_successors.mp edge)).2
  have start : CycleSearch.Inv n (graphEdges dependencies).successors {} :=
    ⟨fun _ => Nat.zero_le _, fun _ _ => rfl, by simp, nofun, .nil, by simp, by simp⟩
  obtain ⟨searched, same⟩ := start.roots inside (fun s => s.turns_le)
    (fun root member => mem_range.mp member) rfl
  cases result : (range n).foldlM (CycleSearch.fromRoot (graphEdges dependencies).successors
      (dependencies.length + n)) {} with
  | error phase =>
    obtain ⟨low, cycle⟩ := searched.of_error result
    refine ⟨phase, low, edges ▸ cycle, fun fuel more => ?_⟩
    rw [← Nat.add_sub_cancel' more, same, result]
  | ok t =>
    -- every phase was entered and none is on the stack, so all are done
    obtain ⟨inv, empty, -, entered⟩ := searched.of_ok result
    have ends (v : ℕ) : Acc (Function.swap (Precedes dependencies)) v := by
      by_cases low : v < n
      · have notGray : t.color v ≠ 1 := by simp [inv.gray, empty]
        have := entered v (mem_range.mpr low)
        rw [← edges]
        exact inv.black v (by omega)
      · exact ⟨_, fun b edge => absurd (hrange v b edge).1 low⟩
    exact absurd (acyclic_of_acc ends) hcyclic

end RtRuntime
