import Mathlib.Tactic

/-!
# Lists that change in one place

A list that has grown by an entry at its end, a count of entries of which one has changed, and a
sorted list cut where a predicate stops.
-/

namespace RtRuntime

open List

section Concat

variable {α : Type*} {l : List α} {a : α}

theorem forall_mem_concat {P : α → Prop} : (∀ x ∈ l ++ [a], P x) ↔ (∀ x ∈ l, P x) ∧ P a := by
  rw [forall_mem_append, forall_mem_singleton]

theorem pairwise_concat {R : α → α → Prop} :
    (l ++ [a]).Pairwise R ↔ l.Pairwise R ∧ ∀ x ∈ l, R x a := by
  simp [pairwise_append]

theorem getElem?_concat_eq_some {n : ℕ} {x : α} :
    (l ++ [a])[n]? = some x ↔ l[n]? = some x ∨ n = l.length ∧ a = x := by
  grind

/-- A split of the longer list is at the new entry or earlier. -/
theorem concat_split {before after : List α} {x : α} (split : l ++ [a] = before ++ x :: after) :
    l = before ∧ a = x ∧ after = [] ∨ ∃ rest, after = rest ++ [a] ∧ l = before ++ x :: rest := by
  rcases eq_nil_or_concat' after with rfl | ⟨rest, last, rfl⟩
  · obtain ⟨rfl, rfl⟩ := append_singleton_inj.mp split
    exact .inl ⟨rfl, rfl, rfl⟩
  · rw [← cons_append, ← append_assoc] at split
    obtain ⟨rfl, rfl⟩ := append_singleton_inj.mp split
    exact .inr ⟨rest, rfl, rfl⟩

end Concat

/-- In a sorted list, the entries of a predicate that is passed down come first. -/
theorem takeWhile_dropWhile_eq_filter {α : Type*} {l : List α} {R : α → α → Prop} {p : α → Bool}
    (sorted : l.Pairwise R) (closed : ∀ a ∈ l, ∀ b ∈ l, R a b → p b → p a) :
    l.takeWhile p = l.filter p ∧ l.dropWhile p = l.filter (!p ·) := by
  induction l with
  | nil => exact ⟨rfl, rfl⟩
  | cons a l ih =>
    obtain ⟨first, sorted⟩ := pairwise_cons.mp sorted
    by_cases holds : p a
    · have later := ih sorted fun b hb c hc =>
        closed b (mem_cons_of_mem _ hb) c (mem_cons_of_mem _ hc)
      simp [holds, later]
    · have none : ∀ b ∈ l, ¬p b := fun b member later =>
        holds (closed a mem_cons_self b (mem_cons_of_mem _ member) (first b member) later)
      have all : l.filter (!p ·) = l := filter_eq_self.mpr (by simpa using none)
      simp [holds, filter_eq_nil_iff.mpr none, all]

/-- Changing a predicate at one element changes the count by that element. -/
theorem countP_update {α : Type*} {l : List α} (nodup : l.Nodup) {k : α} (member : k ∈ l)
    (p p' : α → Bool) (same : ∀ j ∈ l, j ≠ k → p' j = p j) :
    l.countP p' + (if p k then 1 else 0) = l.countP p + if p' k then 1 else 0 := by
  classical
  have others : (l.erase k).countP p' = (l.erase k).countP p := countP_congr fun j inside => by
    obtain ⟨ne, inside⟩ := nodup.mem_erase_iff.mp inside
    rw [same j inside ne]
  have split := perm_cons_erase member
  rw [split.countP_eq p', split.countP_eq p, countP_cons, countP_cons, others]
  omega

end RtRuntime
