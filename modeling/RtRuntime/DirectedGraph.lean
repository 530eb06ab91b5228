import Mathlib.Tactic

/-!
# Directed graphs: acyclicity, topological orders, reachability

General facts about a relation `E` on a type of vertices, used by the compilers
that order a graph:

* `Acyclic` — no vertex reaches itself;
* `IsTopoOrder V E l` — `l` lists the vertices `V` with every predecessor first;
* `IsLeastTopoOrder` — moreover no topological order is lexicographically smaller.
  `IsTopoOrder.least_of_greedy` reduces this to a local condition: every listed
  vertex is the smallest one whose predecessors are already listed;
* `exists_cycle_of_stuck` — a nonempty finite set in which every vertex has a
  predecessor contains a cycle, and `length_eq_of_acyclic`, the reason Kahn's loop only
  stops early on one;
* `mem_of_reachable` — a set closed under successors contains what its members reach.
-/

namespace RtRuntime

open Relation

variable {α : Type*} {E : α → α → Prop}

/-! ## Acyclicity -/

/-- No vertex reaches itself along at least one edge. -/
def Acyclic (E : α → α → Prop) : Prop := ∀ a, ¬ TransGen E a a

/-- A graph in which every path ends is acyclic. -/
theorem acyclic_of_acc (h : ∀ a, Acc (Function.swap E) a) : Acyclic E := by
  intro a cycle
  have ends : WellFounded (TransGen (Function.swap E)) := (WellFounded.intro h).transGen
  exact ends.asymmetric a a (transGen_swap.mpr cycle) (transGen_swap.mpr cycle)

/-- In an acyclic graph a nonempty finite set of vertices has a member without
predecessor in the set; contrapositively, a set in which everything has one
carries a cycle. -/
theorem exists_cycle_of_stuck {R : Finset α} (hne : R.Nonempty)
    (hstuck : ∀ b ∈ R, ∃ a ∈ R, E a b) : ¬ Acyclic E := by
  intro hA
  let S : R → R → Prop := fun a b => TransGen E a.1 b.1
  have : IsTrans R S := ⟨fun _ _ _ hab hbc => hab.trans hbc⟩
  have : Std.Irrefl S := ⟨fun a h => hA a.1 h⟩
  have hwf : WellFounded S := Finite.wellFounded_of_trans_of_irrefl S
  obtain ⟨b₀, hb₀⟩ := hne
  obtain ⟨m, -, hmin⟩ := hwf.has_min Set.univ ⟨⟨b₀, hb₀⟩, trivial⟩
  obtain ⟨a, ha, hE⟩ := hstuck m.1 m.2
  exact hmin ⟨a, ha⟩ trivial (TransGen.single hE)

/-- Vertices listed until every one left over waits for another one left over: on an acyclic
graph none is left over. -/
theorem length_eq_of_acyclic {E : ℕ → ℕ → Prop} {n : ℕ} {l : List ℕ} (hnd : l.Nodup)
    (hlt : ∀ v ∈ l, v < n) (hstuck : ∀ b < n, b ∉ l → ∃ a < n, a ∉ l ∧ E a b)
    (hacyclic : Acyclic E) : l.length = n := by
  by_contra hlen
  have hsub : l.toFinset ⊆ Finset.range n := fun v hv =>
    Finset.mem_range.mpr (hlt v (List.mem_toFinset.mp hv))
  have hcard : l.toFinset.card ≠ (Finset.range n).card := by
    rwa [List.toFinset_card_of_nodup hnd, Finset.card_range]
  have hne : (Finset.range n \ l.toFinset).Nonempty := by
    rw [Finset.sdiff_nonempty]
    exact fun hall => hcard (congrArg Finset.card (hsub.antisymm hall))
  refine exists_cycle_of_stuck hne (fun b hb => ?_) hacyclic
  rw [Finset.mem_sdiff, Finset.mem_range, List.mem_toFinset] at hb
  obtain ⟨a, ha, hal, hE⟩ := hstuck b hb.1 hb.2
  exact ⟨a, by simp [ha, hal], hE⟩

/-! ## Topological orders -/

/-- `l` lists the vertices of `V` once each, every predecessor before its successors. -/
structure IsTopoOrder (V : List α) (E : α → α → Prop) (l : List α) : Prop where
  /-- the vertices, each once -/
  perm : l.Perm V
  /-- predecessors come first -/
  before : ∀ pre b post, l = pre ++ b :: post → ∀ a, E a b → a ∈ pre

/-- A topological order that no topological order precedes lexicographically. -/
def IsLeastTopoOrder [LT α] (V : List α) (E : α → α → Prop) (l : List α) : Prop :=
  IsTopoOrder V E l ∧ ∀ l', IsTopoOrder V E l' → l = l' ∨ List.Lex (· < ·) l l'

theorem IsTopoOrder.idxOf_lt [DecidableEq α] {V l : List α} (h : IsTopoOrder V E l) {a b : α}
    (hE : E a b) (hb : b ∈ V) : l.idxOf a < l.idxOf b := by
  obtain ⟨pre, post, hl, hnot⟩ := List.eq_append_cons_of_mem (h.perm.mem_iff.mpr hb)
  have ha : a ∈ pre := h.before pre b post hl a hE
  rw [hl, List.idxOf_append_of_mem ha, List.idxOf_append_of_notMem hnot, List.idxOf_cons_self]
  have := List.idxOf_lt_length_of_mem ha
  omega

/-- A graph with a topological order of all its edge targets is acyclic. -/
theorem IsTopoOrder.acyclic [DecidableEq α] {V l : List α} (h : IsTopoOrder V E l)
    (hV : ∀ a b, E a b → b ∈ V) : Acyclic E := by
  have hmono : ∀ {a b}, TransGen E a b → l.idxOf a < l.idxOf b := by
    intro a b hab
    induction hab with
    | single hE => exact h.idxOf_lt hE (hV _ _ hE)
    | tail _ hE ih => exact ih.trans (h.idxOf_lt hE (hV _ _ hE))
  intro a ha
  exact lt_irrefl _ (hmono ha)

section Greedy

variable [LinearOrder α] {V : List α}

/-- The comparison behind `IsTopoOrder.least_of_greedy`, from a common prefix on:
where the two orders first differ, the greedy one took the smaller vertex. -/
theorem lex_of_greedy (hV : V.Nodup) {l' : List α} (h' : IsTopoOrder V E l') :
    ∀ (s p s' : List α), l' = p ++ s' → s.length = s'.length →
      (∀ pre x post, p ++ s = pre ++ x :: post →
        ∀ y ∈ V, y ∉ pre → (∀ a, E a y → a ∈ pre) → x ≤ y) →
      s = s' ∨ List.Lex (· < ·) s s' := by
  intro s
  induction s with
  | nil =>
    intro p s' _ hlen _
    exact Or.inl (List.length_eq_zero_iff.mp hlen.symm).symm
  | cons x t ih =>
    intro p s' hl' hlen hgreedy
    cases s' with
    | nil => cases hlen
    | cons y t' =>
      have hnd : (p ++ y :: t').Nodup := hl' ▸ h'.perm.nodup_iff.mpr hV
      have hyp : y ∉ p := fun hy =>
        (List.nodup_append.mp hnd).2.2 y hy y List.mem_cons_self rfl
      have hyV : y ∈ V := h'.perm.mem_iff.mp (by rw [hl']; simp)
      have hxy : x ≤ y := hgreedy p x t rfl y hyV hyp (h'.before p y t' hl')
      rcases lt_or_eq_of_le hxy with hlt | rfl
      · exact Or.inr (List.Lex.rel hlt)
      · -- the same vertex: compare the rest after the longer prefix
        have hrec := ih (p ++ [x]) t' (by rw [hl', List.append_assoc]; rfl)
          (by simpa using hlen)
          (fun pre z post hz => hgreedy pre z post (by rw [← hz, List.append_assoc]; rfl))
        rcases hrec with rfl | hlex
        · exact Or.inl rfl
        · exact Or.inr (List.Lex.cons hlex)

/-- A topological order whose every vertex is the smallest available one is the
lexicographically least topological order. -/
theorem IsTopoOrder.least_of_greedy (hV : V.Nodup) {l : List α} (h : IsTopoOrder V E l)
    (hgreedy : ∀ pre x post, l = pre ++ x :: post →
      ∀ y ∈ V, y ∉ pre → (∀ a, E a y → a ∈ pre) → x ≤ y) : IsLeastTopoOrder V E l := by
  refine ⟨h, fun l' h' => ?_⟩
  have hlen : l.length = l'.length := h.perm.length_eq.trans h'.perm.length_eq.symm
  exact lex_of_greedy hV h' l [] l' rfl hlen hgreedy

end Greedy

/-! ## Reachability -/

/-- A set closed under successors contains everything its members reach. -/
theorem mem_of_reachable {M : α → Prop} (hclosed : ∀ a b, M a → E a b → M b) {a b : α}
    (ha : M a) (hab : ReflTransGen E a b) : M b := by
  induction hab with
  | refl => exact ha
  | tail _ hE ih => exact hclosed _ _ ih hE

end RtRuntime
