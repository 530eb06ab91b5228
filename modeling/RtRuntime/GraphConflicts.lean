import RtRuntime.GraphCycles
import Mathlib.Data.List.TakeWhile

/-!
# Reachability marks, resource conflicts and the graph compiler

`markReachable_spec`: the explicit-stack search marks with its token exactly the
phases reachable from its start, whatever older tokens the shared marks hold.
`checkConflicts_ok_iff`: one pass over the accesses sorted by resource compares
every writer with every access of its resource. `compileGraph_spec` puts the
parts of the compiler together.
-/

namespace RtRuntime

open Function ErrorsSatisfy List

open Relation

/-! ## The search -/

/-- The phases without the token. -/
def unmarked (phaseCount visitToken : ℕ) (visited : ℕ → ℕ) : Finset ℕ :=
  (Finset.range phaseCount).filter (fun v => visited v ≠ visitToken)

variable {n : ℕ}

theorem unmarked_update {token a : ℕ} {visited : ℕ → ℕ} :
    unmarked n token (update visited a token) = (unmarked n token visited).erase a := by
  ext v
  simp only [unmarked, Finset.mem_filter, Finset.mem_erase, update_apply]
  by_cases h : v = a <;> simp [h]

/-- What the loop over the neighbours of one phase does to the marks and the stack. -/
structure Visited (phaseCount visitToken : ℕ) (l : List ℕ) (s s' : MarkState) : Prop where
  marked : ∀ v, s'.visited v = visitToken ↔ s.visited v = visitToken ∨ v ∈ l
  other : ∀ v, s'.visited v = visitToken ∨ s'.visited v = s.visited v
  stack : ∀ v, v ∈ s'.stack ↔ v ∈ s.stack ∨ (v ∈ l ∧ s.visited v ≠ visitToken)
  /-- every push uses up one unmarked phase -/
  budget : s'.stack.length + (unmarked phaseCount visitToken s'.visited).card =
    s.stack.length + (unmarked phaseCount visitToken s.visited).card

theorem foldl_visit (token : ℕ) {l : List ℕ} (s : MarkState) (hl : ∀ a ∈ l, a < n) :
    Visited n token l s (l.foldl (MarkState.visit token) s) := by
  induction l using reverseRecOn with
  | nil => exact ⟨by simp, fun v => Or.inr rfl, by simp, rfl⟩
  | append_singleton l a ih =>
    obtain ⟨hl, ha⟩ := forall_mem_concat.mp hl
    have h := ih hl
    rw [foldl_append, foldl_cons, foldl_nil]
    generalize l.foldl (MarkState.visit token) s = t at h ⊢
    have hmarked := h.marked a
    simp only [MarkState.visit]
    split_ifs with hv
    · refine ⟨fun v => ?_, h.other, fun v => ?_, h.budget⟩
      all_goals simp only [h.marked, h.stack, mem_append, mem_singleton]
      all_goals by_cases hva : v = a
      all_goals first | subst hva; tauto | simp [hva]
    · have hupd : ∀ v, update t.visited a token v = token ↔ t.visited v = token ∨ v = a := by
        intro v
        rw [update_apply]
        by_cases hva : v = a <;> simp [hva]
      refine ⟨fun v => ?_, ?_, fun v => ?_, ?_⟩
      · rw [hupd, h.marked, mem_append, mem_singleton, or_assoc]
      · exact (forall_update_iff t.visited fun v m => m = token ∨ m = s.visited v).mpr
          ⟨Or.inl rfl, fun v _ => h.other v⟩
      · rw [mem_cons, h.stack, mem_append, mem_singleton]
        by_cases hva : v = a
        · subst hva
          tauto
        · simp [hva]
      · have hmem : a ∈ unmarked n token t.visited := by simp [unmarked, ha, hv]
        have := Finset.card_pos.mpr ⟨a, hmem⟩
        rw [← h.budget, unmarked_update, Finset.card_erase_of_mem hmem, length_cons]
        omega

/-- The invariant of the search from `start`: marked phases are reachable, and those
off the stack have all their neighbours marked. -/
structure MarkInv (start : ℕ) (adjacency : Adjacency) (visitToken : ℕ) (s : MarkState) : Prop where
  start_marked : s.visited start = visitToken
  stack_marked : ∀ v ∈ s.stack, s.visited v = visitToken
  reach : ∀ v, s.visited v = visitToken → ReflTransGen (fun a b => b ∈ adjacency a) start v
  closed : ∀ v, s.visited v = visitToken → v ∉ s.stack → ∀ w ∈ adjacency v,
    s.visited w = visitToken

section Search

variable {n start token : ℕ} (adjacency : Adjacency) (hadj : ∀ a, ∀ b ∈ adjacency a, b < n)
include hadj

/-- One turn of the search keeps the invariant. -/
theorem MarkInv.step {s : MarkState} {phase : ℕ} {rest : List ℕ}
    (h : MarkInv start adjacency token s) (hstack : s.stack = phase :: rest) :
    MarkInv start adjacency token
      ((adjacency phase).foldl (MarkState.visit token) { s with stack := rest }) := by
  have hv := foldl_visit token { s with stack := rest } (hadj phase)
  generalize (adjacency phase).foldl (MarkState.visit token) { s with stack := rest } = s' at hv ⊢
  have hmarked : ∀ v, s'.visited v = token ↔ s.visited v = token ∨ v ∈ adjacency phase := hv.marked
  have hphase : s.visited phase = token :=
    h.stack_marked phase (by rw [hstack]; exact mem_cons_self)
  refine ⟨(hmarked start).mpr (Or.inl h.start_marked), fun v hvs => ?_, fun v hvm => ?_,
    fun v hvm hvs w hw => ?_⟩
  · rw [hmarked]
    rcases (hv.stack v).mp hvs with h1 | ⟨h1, -⟩
    · exact Or.inl (h.stack_marked v (by rw [hstack]; exact mem_cons_of_mem _ h1))
    · exact Or.inr h1
  · rcases (hmarked v).mp hvm with h1 | h1
    · exact h.reach v h1
    · exact (h.reach phase hphase).tail h1
  · rw [hmarked]
    rw [hv.stack, not_or, not_and_not_right] at hvs
    by_cases hvp : v = phase
    · exact Or.inr (hvp ▸ hw)
    · have hvold : s.visited v = token := ((hmarked v).mp hvm).elim id hvs.2
      refine Or.inl (h.closed v hvold ?_ w hw)
      rw [hstack, mem_cons]
      exact not_or.mpr ⟨hvp, hvs.1⟩

/-- The run of the search: with fuel for the stack and the unmarked phases it empties the
stack. -/
theorem markLoop_spec (fuel : ℕ) : ∀ s : MarkState, MarkInv start adjacency token s →
    s.stack.length + (unmarked n token s.visited).card ≤ fuel →
    MarkInv start adjacency token (markLoop adjacency token fuel s) ∧
      (markLoop adjacency token fuel s).stack = [] ∧
      ∀ v, (markLoop adjacency token fuel s).visited v = token ∨
        (markLoop adjacency token fuel s).visited v = s.visited v := by
  induction fuel with
  | zero =>
    intro s h hfuel
    exact ⟨h, length_eq_zero_iff.mp (by change s.stack.length = 0; omega), fun v => Or.inr rfl⟩
  | succ fuel ih =>
    intro s h hfuel
    rw [markLoop]
    cases hs : s.stack with
    | nil => exact ⟨h, hs, fun v => Or.inr rfl⟩
    | cons phase rest =>
      have hv := foldl_visit token { s with stack := rest } (hadj phase)
      have hbudget := hv.budget
      have hrec := ih _ (h.step adjacency hadj hs) (by
        rw [hs, length_cons] at hfuel
        rw [hbudget]
        change rest.length + (unmarked n token s.visited).card ≤ fuel
        omega)
      refine ⟨hrec.1, hrec.2.1, fun v => ?_⟩
      rcases hrec.2.2 v with h1 | h1
      · exact Or.inl h1
      · rcases hv.other v with h2 | h2
        · exact Or.inl (h1.trans h2)
        · exact Or.inr (h1.trans h2)

/-- `mark_reachable` marks exactly the phases reachable from its start, if no mark holds
the token yet; the other marks stay. -/
theorem markReachable_spec {visited : ℕ → ℕ} (hfresh : ∀ v, visited v ≠ token)
    (hstart : start < n) :
    (∀ v, markReachable n start adjacency visited token v = token ↔
      ReflTransGen (fun a b => b ∈ adjacency a) start v) ∧
    ∀ v, markReachable n start adjacency visited token v = token ∨
      markReachable n start adjacency visited token v = visited v := by
  have hupd : ∀ v, update visited start token v = token ↔ v = start := by
    intro v
    rw [update_apply]
    by_cases h : v = start <;> simp [h, hfresh]
  have hinit : MarkInv start adjacency token
      { visited := update visited start token, stack := [start] } := by
    refine ⟨(hupd start).mpr rfl, fun v hv => (hupd v).mpr (mem_singleton.mp hv),
      fun v hv => ?_, fun v hv hvs => ?_⟩
    · rw [(hupd v).mp hv]
    · exact absurd (mem_singleton.mpr ((hupd v).mp hv)) hvs
  have hbudget : [start].length +
      (unmarked n token (update visited start token)).card ≤ n := by
    have hmem : start ∈ unmarked n token visited := by simp [unmarked, hstart, hfresh]
    have hle : (unmarked n token visited).card ≤ n :=
      (Finset.card_filter_le _ _).trans (Finset.card_range n).le
    have hpos := Finset.card_pos.mpr ⟨start, hmem⟩
    rw [unmarked_update, Finset.card_erase_of_mem hmem, length_singleton]
    omega
  obtain ⟨hinv, hempty, hother⟩ := markLoop_spec adjacency hadj n _ hinit hbudget
  refine ⟨fun v => ⟨hinv.reach v, fun hreach => ?_⟩, fun v => ?_⟩
  · refine mem_of_reachable (M := fun v => markReachable n start adjacency visited token v = token)
      (fun a b ha hab => ?_) hinv.start_marked hreach
    exact hinv.closed a ha (by rw [hempty]; exact not_mem_nil) b hab
  · rcases hother v with h1 | h1
    · exact Or.inl h1
    · by_cases hv : v = start
      · exact Or.inl (h1.trans ((hupd v).mpr hv))
      · exact Or.inr (h1.trans (update_of_ne hv _ _))

end Search

/-! ## One pass over the sorted accesses -/

/-- Marks never exceed the last token given out. -/
def ReachState.Bounded (s : ReachState) : Prop :=
  ∀ v, s.reachableAfter v ≤ s.visitToken ∧ s.reachableBefore v ≤ s.visitToken

variable {s : ReachState}

/-- A new token is on no mark. -/
theorem ReachState.Bounded.nextToken_fresh (h : s.Bounded) (v : ℕ) :
    s.nextToken.reachableAfter v < s.nextToken.visitToken ∧
      s.nextToken.reachableBefore v < s.nextToken.visitToken := by
  unfold ReachState.nextToken
  split
  · exact ⟨Nat.one_pos, Nat.one_pos⟩
  · exact ⟨Nat.lt_succ_of_le (h v).1, Nat.lt_succ_of_le (h v).2⟩

section Conflicts

variable {dependencies : List GraphDependency} {n : ℕ}
  (hrange : ∀ a b, Precedes dependencies a b → a < n ∧ b < n)
include hrange

/-- After both searches from `phase`, the token stands on the phases after and before it. -/
theorem ReachState.Bounded.mark (h : s.Bounded) {phase : ℕ} (hphase : phase < n) :
    (s.mark n (graphEdges dependencies) phase).Bounded ∧
    (∀ v, (s.mark n (graphEdges dependencies) phase).reachableAfter v =
        (s.mark n (graphEdges dependencies) phase).visitToken ↔
      ReflTransGen (Precedes dependencies) phase v) ∧
    ∀ v, (s.mark n (graphEdges dependencies) phase).reachableBefore v =
        (s.mark n (graphEdges dependencies) phase).visitToken ↔
      ReflTransGen (Precedes dependencies) v phase := by
  have hfresh := h.nextToken_fresh
  have hafter := markReachable_spec (graphEdges dependencies).successors
    (fun a b hb => (hrange a b (mem_successors.mp hb)).2) (fun v => (hfresh v).1.ne) hphase
  have hbefore := markReachable_spec (graphEdges dependencies).predecessors
    (fun a b hb => (hrange b a (mem_predecessors.mp hb)).1) (fun v => (hfresh v).2.ne) hphase
  refine ⟨fun v => ⟨?_, ?_⟩, fun v => ?_, fun v => ?_⟩
  · rcases hafter.2 v with h1 | h1
    · exact h1.le
    · exact h1.le.trans (hfresh v).1.le
  · rcases hbefore.2 v with h1 | h1
    · exact h1.le
    · exact h1.le.trans (hfresh v).2.le
  · refine (hafter.1 v).trans ?_
    simp only [mem_successors]
  · refine (hbefore.1 v).trans ?_
    simp only [mem_predecessors]
    exact reflTransGen_swap

/-- A writer and another access of its resource do not conflict. -/
def Ordered (dependencies : List GraphDependency) (writer other : GraphResourceAccess) : Prop :=
  writer.phase = other.phase ∨
    ReflTransGen (Precedes dependencies) writer.phase.index other.phase.index ∨
    ReflTransGen (Precedes dependencies) other.phase.index writer.phase.index

theorem checkWriter_ok_iff (h : s.Bounded) {group : List GraphResourceAccess}
    {writer : GraphResourceAccess} (hw : writer.phase.index < n) :
    (∃ s', checkWriter n (graphEdges dependencies) group s writer = .ok s') ↔
      (writer.access = .write → ∀ other ∈ group, Ordered dependencies writer other) := by
  obtain ⟨-, hafter, hbefore⟩ := h.mark hrange hw
  unfold checkWriter
  by_cases hwrite : writer.access = .write
  · simp only [hwrite, ne_eq, not_true_eq_false, if_false, bind_eq_ok, forM_eq_ok, checkOther,
      reject_eq_ok, hafter, hbefore, true_implies]
    constructor
    · rintro ⟨_, _, hall, -⟩ other ho
      have := hall other ho
      unfold Ordered
      tauto
    · intro hall
      refine ⟨_, (), fun other ho => ?_, rfl⟩
      have := hall other ho
      unfold Ordered at this
      tauto
  · simp [hwrite]

theorem checkWriter_bounded {s' : ReachState} (h : s.Bounded) {group : List GraphResourceAccess}
    {writer : GraphResourceAccess} (hw : writer.phase.index < n)
    (hs : checkWriter n (graphEdges dependencies) group s writer = .ok s') : s'.Bounded := by
  unfold checkWriter at hs
  split at hs
  · cases hs
    exact h
  · rw [bind_eq_ok] at hs
    obtain ⟨_, _, hs⟩ := hs
    cases hs
    exact (h.mark hrange hw).1

omit hrange in
/-- Sorted accesses with one handle for each resource index: what follows the group of
the first resource touches other resources. -/
theorem resource_ne_of_mem_dropWhile {first : GraphResourceAccess}
    {rest : List GraphResourceAccess}
    (hsorted : (first :: rest).Pairwise (fun a b => accessLe a b = true))
    (hinj : ∀ a ∈ first :: rest, ∀ b ∈ first :: rest,
      a.resource.index = b.resource.index → a.resource = b.resource) :
    ∀ a ∈ rest.dropWhile (fun a => a.resource = first.resource), a.resource ≠ first.resource := by
  have hle : ∀ a b, accessLe a b = true → a.resource.index ≤ b.resource.index := by
    intro a b h
    unfold accessLe at h
    split at h
    · exact (of_decide_eq_true h).le
    · rename_i heq
      push Not at heq
      exact heq.le
  obtain ⟨hfirst, hrest⟩ := pairwise_cons.mp hsorted
  -- an access between two of one resource has its index
  have hdrop := (takeWhile_dropWhile_eq_filter (p := fun a => a.resource = first.resource) hrest
    fun a ha b _ hab hb => decide_eq_true (hinj a (mem_cons_of_mem _ ha) first mem_cons_self ?_)).2
  · rw [hdrop]
    simp
  · have hb : b.resource = first.resource := of_decide_eq_true hb
    exact le_antisymm (hb ▸ hle a b hab) (hle first a (hfirst a ha))

/-- The pass over the sorted accesses succeeds exactly when every writer is ordered with
every access of its resource. -/
theorem checkConflicts_ok_iff (fuel : ℕ) : ∀ (l : List GraphResourceAccess) (s : ReachState),
    l.length ≤ fuel → s.Bounded → (∀ a ∈ l, a.phase.index < n) →
    l.Pairwise (fun a b => accessLe a b = true) →
    (∀ a ∈ l, ∀ b ∈ l, a.resource.index = b.resource.index → a.resource = b.resource) →
    (checkConflicts n (graphEdges dependencies) fuel l s = .ok () ↔
      ∀ writer ∈ l, writer.access = .write → ∀ other ∈ l, writer.resource = other.resource →
        Ordered dependencies writer other) := by
  induction fuel with
  | zero =>
    intro l s hlen _ _ _ _
    cases length_eq_zero_iff.mp (Nat.le_zero.mp hlen)
    simp [checkConflicts]
  | succ fuel ih =>
    intro l s hlen hs hphase hsorted hinj
    cases l with
    | nil => simp [checkConflicts]
    | cons first rest =>
      have hne := resource_ne_of_mem_dropWhile hsorted hinj
      rw [checkConflicts]
      set p : GraphResourceAccess → Bool := fun a => decide (a.resource = first.resource)
      have hsplit : rest.takeWhile p ++ rest.dropWhile p = rest := takeWhile_append_dropWhile
      have htake : ∀ a ∈ first :: rest.takeWhile p, a.resource = first.resource := by
        intro a ha
        rcases mem_cons.mp ha with rfl | ha
        · rfl
        · simpa [p] using mem_takeWhile_imp ha
      have hmem : ∀ a, a ∈ first :: rest ↔
          a ∈ first :: rest.takeWhile p ∨ a ∈ rest.dropWhile p := by
        intro a
        conv_lhs => rw [← hsplit]
        rw [mem_cons, mem_append, mem_cons, or_assoc]
      have hsub : (rest.dropWhile p).Sublist (first :: rest) :=
        (dropWhile_sublist p).cons first
      have hgroup := foldlM_ok_iff (l := first :: rest.takeWhile p)
        (f := checkWriter n (graphEdges dependencies) (first :: rest.takeWhile p))
        (fun t ht x hx => checkWriter_ok_iff hrange ht (hphase x ((hmem x).mpr (Or.inl hx))))
        (fun t ht x hx t' hok =>
          checkWriter_bounded hrange ht (hphase x ((hmem x).mpr (Or.inl hx))) hok) hs
      have hrest := fun t ht => ih (rest.dropWhile p) t
        ((dropWhile_sublist p).length_le.trans (by simpa using hlen)) ht
        (fun a ha => hphase a (hsub.subset ha)) (hsorted.sublist hsub)
        (fun a ha b hb => hinj a (hsub.subset ha) b (hsub.subset hb))
      simp only [bind_eq_ok]
      constructor
      · rintro ⟨t, hfold, hok⟩ writer hw hwrite other ho hres
        have ht := foldlM_invariant (P := fun _ => ReachState.Bounded) hfold hs
          (fun done x more t t' hl hb hx => checkWriter_bounded hrange hb
            (hphase x ((hmem x).mpr (Or.inl (by rw [hl]; simp)))) hx)
        rcases (hmem writer).mp hw with hwg | hwr <;> rcases (hmem other).mp ho with hog | hor
        · exact hgroup.mp ⟨t, hfold, ht⟩ writer hwg hwrite other hog
        · exact absurd (hres.symm.trans (htake writer hwg)) (hne other hor)
        · exact absurd (hres.trans (htake other hog)) (hne writer hwr)
        · exact (hrest t ht).mp hok writer hwr hwrite other hor hres
      · intro hall
        obtain ⟨t, hfold, ht⟩ := hgroup.mpr fun writer hw hwrite other ho =>
          hall writer ((hmem writer).mpr (Or.inl hw)) hwrite other ((hmem other).mpr (Or.inl ho))
            ((htake writer hw).trans (htake other ho).symm)
        refine ⟨t, hfold, (hrest t ht).mpr fun writer hw hwrite other ho hres => ?_⟩
        exact hall writer (hsub.subset hw) hwrite other (hsub.subset ho) hres

end Conflicts

/-! ## The compiler -/

/-- Every handle of the input belongs to the given owner and is in range. -/
def HandlesBelong (graphOwner : UInt32) (phaseCount resourceCount : ℕ)
    (dependencies : List GraphDependency) (accesses : List GraphResourceAccess) : Prop :=
  (∀ d ∈ dependencies, d.prerequisite.belongs graphOwner phaseCount = true ∧
    d.dependent.belongs graphOwner phaseCount = true) ∧
  ∀ a ∈ accesses, a.phase.belongs graphOwner phaseCount = true ∧
    a.resource.belongs graphOwner resourceCount = true

/-- Two phases that touch one resource, one of them writing it, are joined by a
dependency path. -/
def ConflictsOrdered (dependencies : List GraphDependency) (accesses : List GraphResourceAccess) :
    Prop :=
  ∀ a ∈ accesses, ∀ b ∈ accesses, a.resource = b.resource → a.phase ≠ b.phase →
    (a.access = .write ∨ b.access = .write) →
    TransGen (Precedes dependencies) a.phase.index b.phase.index ∨
      TransGen (Precedes dependencies) b.phase.index a.phase.index

variable {owner : UInt32}

theorem PhaseHandle.belongs_iff {p : PhaseHandle} :
    p.belongs owner n = true ↔ p.valid = true ∧ p.owner = owner ∧ p.index < n := by
  simp [PhaseHandle.belongs, and_assoc]

theorem ResourceHandle.belongs_iff {r : ResourceHandle} :
    r.belongs owner n = true ↔ r.valid = true ∧ r.owner = owner ∧ r.index < n := by
  simp [ResourceHandle.belongs, and_assoc]

/-- A handle that belongs to the graph is determined by its index. -/
theorem PhaseHandle.belongs_inj {p q : PhaseHandle} (hp : p.belongs owner n = true)
    (hq : q.belongs owner n = true) (h : p.index = q.index) :
    p = q := by
  rw [PhaseHandle.belongs_iff] at hp hq
  exact PhaseHandle.ext_of_valid hp.1 hq.1 (hp.2.1.trans hq.2.1.symm) h

theorem ResourceHandle.belongs_inj {p q : ResourceHandle} (hp : p.belongs owner n = true)
    (hq : q.belongs owner n = true) (h : p.index = q.index) :
    p = q := by
  rw [ResourceHandle.belongs_iff] at hp hq
  exact ResourceHandle.ext_of_valid hp.1 hq.1 (hp.2.1.trans hq.2.1.symm) h

theorem accessLe_trans (a b c : GraphResourceAccess) (hab : accessLe a b = true)
    (hbc : accessLe b c = true) : accessLe a c = true := by
  simp only [accessLe, ne_eq, ite_not] at *
  split at hab <;> split at hbc <;> split <;> simp only [decide_eq_true_eq] at * <;> omega

theorem accessLe_total (a b : GraphResourceAccess) : (accessLe a b || accessLe b a) = true := by
  simp only [accessLe, ne_eq, ite_not, Bool.or_eq_true]
  split <;> split <;> simp only [decide_eq_true_eq] <;> omega

section Compile

variable {graphOwner : UInt32} {phaseCount resourceCount : ℕ}
  {dependencies : List GraphDependency} {accesses : List GraphResourceAccess}

section

variable (h : HandlesBelong graphOwner phaseCount resourceCount dependencies accesses)
include h

theorem precedes_lt : ∀ a b, Precedes dependencies a b → a < phaseCount ∧ b < phaseCount := by
  rintro a b ⟨d, hd, rfl, rfl⟩
  have hd := h.1 d hd
  rw [PhaseHandle.belongs_iff, PhaseHandle.belongs_iff] at hd
  exact ⟨hd.1.2.2, hd.2.2.2⟩

/-- On accesses that belong to the graph, the comparison of every writer with every access
of its resource is the ordering of all conflicting pairs. -/
theorem conflictsOrdered_iff : (∀ writer ∈ accesses, writer.access = .write → ∀ other ∈ accesses,
      writer.resource = other.resource → Ordered dependencies writer other) ↔
      ConflictsOrdered dependencies accesses := by
  have hne : ∀ a ∈ accesses, ∀ b ∈ accesses, a.phase ≠ b.phase → a.phase.index ≠ b.phase.index :=
    fun a ha b hb hab hidx => hab (PhaseHandle.belongs_inj (h.2 a ha).1 (h.2 b hb).1 hidx)
  have hpath : ∀ {u v : ℕ}, u ≠ v → ReflTransGen (Precedes dependencies) u v →
      TransGen (Precedes dependencies) u v := by
    intro u v huv hr
    rcases reflTransGen_iff_eq_or_transGen.mp hr with heq | ht
    · exact absurd heq.symm huv
    · exact ht
  constructor
  · intro hall a ha b hb hres hab hw
    have hidx := hne a ha b hb hab
    rcases hw with hw | hw
    · rcases hall a ha hw b hb hres with heq | hr | hr
      · exact absurd heq hab
      · exact Or.inl (hpath hidx hr)
      · exact Or.inr (hpath hidx.symm hr)
    · rcases hall b hb hw a ha hres.symm with heq | hr | hr
      · exact absurd heq.symm hab
      · exact Or.inr (hpath hidx.symm hr)
      · exact Or.inl (hpath hidx hr)
  · intro hall a ha hw b hb hres
    by_cases hab : a.phase = b.phase
    · exact Or.inl hab
    · rcases hall a ha b hb hres hab (Or.inl hw) with ht | ht
      · exact Or.inr (Or.inl ht.to_reflTransGen)
      · exact Or.inr (Or.inr ht.to_reflTransGen)

theorem checkConflicts_sorted_ok_iff :
    checkConflicts phaseCount (graphEdges dependencies) accesses.length
      (accesses.mergeSort accessLe) {} = .ok () ↔ ConflictsOrdered dependencies accesses := by
  have hmem : ∀ a, a ∈ accesses.mergeSort accessLe ↔ a ∈ accesses := fun a => mem_mergeSort
  rw [← conflictsOrdered_iff h, checkConflicts_ok_iff (precedes_lt h) _ _ _
    (length_mergeSort accesses).le (fun v => ⟨le_rfl, le_rfl⟩)
    (fun a ha => (PhaseHandle.belongs_iff.mp (h.2 a ((hmem a).mp ha)).1).2.2)
    (pairwise_mergeSort accessLe_trans accessLe_total accesses)
    (fun a ha b hb => ResourceHandle.belongs_inj (h.2 a ((hmem a).mp ha)).2
      (h.2 b ((hmem b).mp hb)).2)]
  simp only [hmem]

end

/-- What a successful compilation has established, and its candidate order. -/
theorem compileOrder_eq_ok {order : List PhaseHandle} :
    compileOrder graphOwner phaseCount resourceCount dependencies accesses = .ok order ↔
      (phaseCount ≤ graphHandleIndexMask.toNat ∧ resourceCount ≤ graphHandleIndexMask.toNat ∧
        HandlesBelong graphOwner phaseCount resourceCount dependencies accesses ∧
        (∀ a ∈ accesses, a.access = .read ∨ a.access = .write) ∧
        Acyclic (Precedes dependencies) ∧ ConflictsOrdered dependencies accesses) ∧
      order = (candidateOrder phaseCount (graphEdges dependencies)).map
        fun phase => PhaseHandle.make graphOwner (UInt32.ofNat phase) := by
  have hreads : (forM accesses (checkAccess graphOwner phaseCount resourceCount) = .ok ()) ↔
      (∀ a ∈ accesses, a.phase.belongs graphOwner phaseCount = true ∧
        a.resource.belongs graphOwner resourceCount = true) ∧
      ∀ a ∈ accesses, a.access = .read ∨ a.access = .write := by
    rw [forM_eq_ok, ← forall₂_and]
    refine forall₂_congr fun a _ => ?_
    simp only [checkAccess, reject_eq_ok]
    cases a.phase.belongs graphOwner phaseCount <;>
      cases a.resource.belongs graphOwner resourceCount <;> simp [or_iff_not_imp_left]
  unfold compileOrder
  simp only [bind_eq_ok, reject_eq_ok, recordDependencies_eq_ok, not_or, not_lt, not_not,
    gt_iff_lt, ne_eq, Unique.exists_iff]
  constructor
  · rintro ⟨⟨hp, hr⟩, edges, ⟨hdeps, rfl⟩, hlen, hacc, hconf, horder⟩
    obtain ⟨hacc, hkind⟩ := hreads.mp hacc
    have hbelong : HandlesBelong graphOwner phaseCount resourceCount dependencies accesses :=
      ⟨hdeps, hacc⟩
    exact ⟨⟨hp, hr, hbelong, hkind, (candidateOrder_complete_iff (precedes_lt hbelong)).mp hlen,
      (checkConflicts_sorted_ok_iff hbelong).mp hconf⟩, (Except.ok.inj horder).symm⟩
  · rintro ⟨⟨hp, hr, hbelong, hkind, hacyclic, hconf⟩, rfl⟩
    exact ⟨⟨hp, hr⟩, _, ⟨hbelong.1, rfl⟩,
      (candidateOrder_complete_iff (precedes_lt hbelong)).mpr hacyclic,
      hreads.mpr ⟨hbelong.2, hkind⟩, (checkConflicts_sorted_ok_iff hbelong).mpr hconf, rfl⟩

/-- A diagnostic that is returned says neither `ok` nor `internal_error`. -/
theorem checkConflicts_errors (edges : GraphEdges) (fuel : ℕ) :
    ∀ (l : List GraphResourceAccess) (s : ReachState),
      ErrorsSatisfy (fun d => d.status ≠ .ok ∧ d.status ≠ .internalError)
        (checkConflicts phaseCount edges fuel l s) := by
  induction fuel with
  | zero => exact fun l s => ErrorsSatisfy.ok ()
  | succ fuel ih =>
    intro l s
    cases l with
    | nil => exact ErrorsSatisfy.ok ()
    | cons first rest =>
      refine bind (foldlM fun t writer _ => ?_) fun t _ => ih _ t
      unfold checkWriter
      split
      · exact ErrorsSatisfy.ok _
      · refine bind (ErrorsSatisfy.forM fun other _ => ?_)
          fun _ _ => ErrorsSatisfy.ok _
        exact ErrorsSatisfy.reject fun _ => by simp

/-- On recorded dependencies that no order lists, the diagnostic names a phase on a cycle. -/
theorem cycleDiagnostic_eq (h : HandlesBelong graphOwner phaseCount resourceCount dependencies [])
    (hcyclic : ¬ Acyclic (Precedes dependencies)) :
    ∃ phase < phaseCount, TransGen (Precedes dependencies) phase phase ∧
      (∀ fuel ≥ dependencies.length + phaseCount, (range phaseCount).foldlM
        (CycleSearch.fromRoot (graphEdges dependencies).successors fuel) {} = .error phase) ∧
      cycleDiagnostic graphOwner phaseCount dependencies.length
          (graphEdges dependencies).successors =
        { status := .graphCycle,
          firstPhase := PhaseHandle.make graphOwner (UInt32.ofNat phase) } := by
  obtain ⟨phase, low, cycle, search⟩ := roots_eq_error (precedes_lt h) hcyclic
  refine ⟨phase, low, cycle, search, ?_⟩
  rw [cycleDiagnostic, search _ le_rfl]

theorem compileOrder_errors :
    ErrorsSatisfy (fun d => d.status ≠ .ok ∧ d.status ≠ .internalError)
      (compileOrder graphOwner phaseCount resourceCount dependencies accesses) := by
  refine bind (ErrorsSatisfy.reject fun _ => by simp) fun _ _ => ?_
  refine bind (foldlM fun _ d _ => ?_) fun edges recorded => ?_
  · exact bind (ErrorsSatisfy.reject fun _ => by simp) fun _ _ => ErrorsSatisfy.ok _
  refine bind (ErrorsSatisfy.reject fun short => ?_) fun _ _ => ?_
  · obtain ⟨belong, rfl⟩ := recordDependencies_eq_ok dependencies |>.mp recorded
    have h : HandlesBelong graphOwner phaseCount resourceCount dependencies [] := ⟨belong, nofun⟩
    obtain ⟨phase, -, -, -, named⟩ :=
      cycleDiagnostic_eq h (short ∘ (candidateOrder_complete_iff (precedes_lt h)).mpr)
    rw [named]
    simp
  refine bind (ErrorsSatisfy.forM fun a _ => ?_) fun _ _ => ?_
  · exact ErrorsSatisfy.reject fun _ => by simp
  exact bind (checkConflicts_errors _ _ _ _) fun _ _ => ErrorsSatisfy.ok _

end Compile

/-- `compile_graph` succeeds exactly on the graphs within the handle range whose handles
belong to the graph, whose accesses are reads and writes, whose dependencies are acyclic and
whose conflicting accesses are ordered. Its order then is the least topological order by
registration index; otherwise the previous order stays. -/
theorem compileGraph_spec (graphOwner : UInt32) (phaseCount resourceCount : ℕ)
    (dependencies : List GraphDependency) (accesses : List GraphResourceAccess)
    (outputOrder : List PhaseHandle) :
    ((compileGraph graphOwner phaseCount resourceCount dependencies accesses outputOrder).status =
        .ok ↔
      phaseCount ≤ graphHandleIndexMask.toNat ∧ resourceCount ≤ graphHandleIndexMask.toNat ∧
      HandlesBelong graphOwner phaseCount resourceCount dependencies accesses ∧
      (∀ a ∈ accesses, a.access = .read ∨ a.access = .write) ∧
      Acyclic (Precedes dependencies) ∧ ConflictsOrdered dependencies accesses) ∧
    ((compileGraph graphOwner phaseCount resourceCount dependencies accesses outputOrder).status =
        .ok →
      ∃ order : List ℕ, IsLeastTopoOrder (List.range phaseCount) (Precedes dependencies) order ∧
        (compileGraph graphOwner phaseCount resourceCount dependencies accesses
          outputOrder).outputOrder =
          order.map fun phase => PhaseHandle.make graphOwner (UInt32.ofNat phase)) ∧
    ((compileGraph graphOwner phaseCount resourceCount dependencies accesses outputOrder).status ≠
        .ok →
      (compileGraph graphOwner phaseCount resourceCount dependencies accesses
        outputOrder).outputOrder = outputOrder) := by
  unfold compileGraph
  cases hc : compileOrder graphOwner phaseCount resourceCount dependencies accesses with
  | ok candidate =>
    obtain ⟨hconds, hcand⟩ := compileOrder_eq_ok.mp hc
    have hlen := (candidateOrder_complete_iff (precedes_lt hconds.2.2.1)).mpr hconds.2.2.2.2.1
    exact ⟨iff_of_true rfl hconds,
      fun _ => ⟨_, candidateOrder_least (precedes_lt hconds.2.2.1) hlen, hcand⟩,
      fun h => absurd rfl h⟩
  | error d =>
    have hd : d.status ≠ .ok := (compileOrder_errors d hc).1
    refine ⟨iff_of_false hd fun hconds => ?_, fun h => absurd h hd, fun _ => rfl⟩
    have := compileOrder_eq_ok.mpr ⟨hconds, rfl⟩
    rw [hc] at this
    cases this

/-- A graph without edges and accesses is rejected when it has more phases than handles can
name, although its handles, its dependencies and its accesses are all in order. -/
theorem compileGraph_capacity : (compileGraph 0 (2 ^ 30) 0 [] [] []).status ≠ .ok ∧
    HandlesBelong 0 (2 ^ 30) 0 [] [] ∧ Acyclic (Precedes []) ∧ ConflictsOrdered [] [] := by
  refine ⟨?_, ⟨?_, ?_⟩, ?_, ?_⟩
  · have hcap : compileOrder 0 (2 ^ 30) 0 [] [] = .error { status := .capacityExceeded } :=
      bind_eq_error.mpr (Or.inl (reject_eq_error.mpr ⟨by decide, rfl⟩))
    rw [compileGraph, hcap]
    simp
  · simp
  · simp
  · intro a ha
    obtain ⟨b, -, d, hd, -⟩ := (TransGen.tail'_iff).mp ha
    cases hd
  · simp [ConflictsOrdered]

/-- `compile_graph` answers dependencies with a cycle by `graph_cycle` and a phase that lies on one,
found by the search however much fuel it has beyond its bound. It never answers
`internal_error`. -/
theorem compileGraph_names_cycle (graphOwner : UInt32) (phaseCount resourceCount : ℕ)
    (dependencies : List GraphDependency) (accesses : List GraphResourceAccess)
    (outputOrder : List PhaseHandle) :
    (compileGraph graphOwner phaseCount resourceCount dependencies accesses outputOrder).status ≠
        .internalError ∧
    (phaseCount ≤ graphHandleIndexMask.toNat → resourceCount ≤ graphHandleIndexMask.toNat →
      (∀ d ∈ dependencies, d.prerequisite.belongs graphOwner phaseCount = true ∧
        d.dependent.belongs graphOwner phaseCount = true) →
      ¬ Acyclic (Precedes dependencies) →
      ∃ phase < phaseCount, TransGen (Precedes dependencies) phase phase ∧
        (∀ fuel ≥ dependencies.length + phaseCount, (range phaseCount).foldlM
          (CycleSearch.fromRoot (graphEdges dependencies).successors fuel) {} = .error phase) ∧
        compileGraph graphOwner phaseCount resourceCount dependencies accesses outputOrder =
          ⟨.graphCycle, outputOrder,
            { status := .graphCycle,
              firstPhase := PhaseHandle.make graphOwner (UInt32.ofNat phase) }⟩) := by
  constructor
  · unfold compileGraph
    cases result : compileOrder graphOwner phaseCount resourceCount dependencies accesses with
    | ok candidate => simp
    | error d => exact (compileOrder_errors d result).2
  · intro phases resources belong cyclic
    have h : HandlesBelong graphOwner phaseCount resourceCount dependencies [] := ⟨belong, nofun⟩
    obtain ⟨phase, low, cycle, search, named⟩ := cycleDiagnostic_eq h cyclic
    have short : (candidateOrder phaseCount (graphEdges dependencies)).length ≠ phaseCount :=
      mt (candidateOrder_complete_iff (precedes_lt h)).mp cyclic
    have stops : compileOrder graphOwner phaseCount resourceCount dependencies accesses =
        .error { status := .graphCycle,
                 firstPhase := PhaseHandle.make graphOwner (UInt32.ofNat phase) } := by
      refine reject_bind_eq_error.mpr (.inr ⟨by omega, ?_⟩)
      refine bind_eq_error.mpr (.inr ⟨_, (recordDependencies_eq_ok _).mpr ⟨belong, rfl⟩, ?_⟩)
      exact reject_bind_eq_error.mpr (.inl ⟨short, named⟩)
    exact ⟨phase, low, cycle, search, by rw [compileGraph, stops]⟩

/-- The phases 1 and 2 wait for each other, and phase 0 comes before them. -/
def pairDependencies : List GraphDependency :=
  [(0, 1), (1, 2), (2, 1)].map fun (a, b) => ⟨PhaseHandle.make 1 a, PhaseHandle.make 1 b⟩

theorem compileGraph_names_cycle_pair : ∃ phase < 3,
    TransGen (Precedes pairDependencies) phase phase ∧
      compileGraph 1 3 0 pairDependencies [] [] =
        ⟨.graphCycle, [],
          { status := .graphCycle,
            firstPhase := PhaseHandle.make 1 (UInt32.ofNat phase) }⟩ := by
  have there : Precedes pairDependencies 1 2 := ⟨⟨_, _⟩, .tail _ (.head _), by decide, by decide⟩
  have back : Precedes pairDependencies 2 1 :=
    ⟨⟨_, _⟩, .tail _ (.tail _ (.head _)), by decide, by decide⟩
  obtain ⟨phase, low, cycle, -, result⟩ := (compileGraph_names_cycle 1 3 0 pairDependencies [] []).2
    (by decide) (by decide) (by decide) fun acyclic => acyclic 1 (.tail (.single there) back)
  exact ⟨phase, low, cycle, result⟩

end RtRuntime
