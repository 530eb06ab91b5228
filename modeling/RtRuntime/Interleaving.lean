import Mathlib.Data.List.Basic

/-!
# Interleaved runs

Threads that share memory are modelled by a step function: an action names the thread that moves
and what it does, and the step is `none` where that action is not possible.  A run is a list of
actions, so quantifying over lists quantifies over interleavings.
-/

namespace RtRuntime

open Function

/-! The parties of small runs are the numbers below two or three. -/

instance two_neZero : @NeZero ℕ Zero.ofOfNat0 2 := ⟨by decide⟩

instance three_neZero : @NeZero ℕ Zero.ofOfNat0 3 := ⟨by decide⟩

section Runs

variable {σ α : Type*} (step : σ → α → Option σ)

/-- The state after a list of actions, if each of them was possible when its turn came. -/
def runActions : σ → List α → Option σ
  | s, [] => some s
  | s, a :: rest => (step s a).bind (runActions · rest)

variable {step}

variable {s : σ}

theorem runActions_cons {t : σ} {a : α} {rest : List α} :
    runActions step s (a :: rest) = some t ↔
      ∃ u, step s a = some u ∧ runActions step u rest = some t := by
  simp [runActions, Option.bind_eq_some_iff]

variable {actions : List α}

theorem runActions_append {more : List α} :
    runActions step s (actions ++ more) =
      (runActions step s actions).bind (runActions step · more) := by
  induction actions generalizing s with
  | nil => rfl
  | cons a rest ih => simp [runActions, Option.bind_assoc, ih]

/-- Every step of a run meets a condition on the state it is taken in. -/
def RunMeets (step : σ → α → Option σ) (meets : σ → α → Prop) : σ → List α → Prop
  | _, [] => True
  | s, a :: rest => meets s a ∧ (step s a).elim True fun t => RunMeets step meets t rest

instance decidableRunMeets (step : σ → α → Option σ) (meets : σ → α → Prop)
    [∀ s a, Decidable (meets s a)] :
    (actions : List α) → (s : σ) → Decidable (RunMeets step meets s actions)
  | [], _ => isTrue trivial
  | a :: rest, s =>
    have : Decidable ((step s a).elim True fun t => RunMeets step meets t rest) :=
      match step s a with
      | none => isTrue trivial
      | some t => decidableRunMeets step meets rest t
    inferInstanceAs (Decidable (_ ∧ _))

variable {meets : σ → α → Prop}

/-- What holds at the start and is kept by every step that meets the condition holds after every run
whose steps all meet it. -/
theorem RunMeets.invariant {I : σ → Prop}
    (keeps : ∀ s a t, I s → meets s a → step s a = some t → I t) {t : σ} (start : I s)
    (ok : RunMeets step meets s actions) (ran : runActions step s actions = some t) : I t := by
  induction actions generalizing s with
  | nil =>
    obtain rfl : s = t := by simpa [runActions] using ran
    exact start
  | cons a rest ih =>
    obtain ⟨u, first, more⟩ := runActions_cons.mp ran
    obtain ⟨met, later⟩ := ok
    rw [first] at later
    exact ih (keeps s a u start met first) later more

theorem RunMeets.of_forall {allowed : α → Prop} (all : ∀ a ∈ actions, allowed a) :
    RunMeets step (fun _ => allowed) s actions := by
  induction actions generalizing s with
  | nil => trivial
  | cons a rest ih =>
    obtain ⟨first, later⟩ := List.forall_mem_cons.mp all
    refine ⟨first, ?_⟩
    cases step s a with
    | none => trivial
    | some t => exact ih later

/-- What holds at the start and is kept by every allowed action holds after every run of
allowed actions. -/
theorem runActions_invariant {I : σ → Prop} {allowed : α → Prop}
    (keeps : ∀ s a t, I s → allowed a → step s a = some t → I t) {t : σ} (start : I s)
    (ok : ∀ a ∈ actions, allowed a) (ran : runActions step s actions = some t) : I t :=
  RunMeets.invariant keeps start (.of_forall ok) ran

/-- Two conditions on the steps together. -/
theorem RunMeets.both {meets' : σ → α → Prop} (ok : RunMeets step meets s actions)
    (ok' : RunMeets step meets' s actions) :
    RunMeets step (fun s a => meets s a ∧ meets' s a) s actions := by
  induction actions generalizing s with
  | nil => trivial
  | cons a rest ih =>
    obtain ⟨met, later⟩ := ok
    obtain ⟨met', later'⟩ := ok'
    refine ⟨⟨met, met'⟩, ?_⟩
    cases first : step s a with
    | none => trivial
    | some t =>
      rw [first] at later later'
      exact ih later later'

end Runs

section Updates

variable {ι α : Type*} [DecidableEq ι] {f g : ι → α} {x : ι} {a : α}

theorem update_at (moved : g = update f x a) : g x = a := by
  rw [moved, update_self]

theorem update_off {y : ι} (moved : g = update f x a) (ne : y ≠ x) : g y = f y := by
  rw [moved, update_of_ne ne]

/-- What holds of an updated function at a point holds of the new value, or of the old one. -/
theorem update_cases {y : ι} {P : α → Prop} (h : P (update f x a y)) :
    y = x ∧ P a ∨ y ≠ x ∧ P (f y) :=
  (pred_update (fun _ => P) f x a y).mp h

variable {ρ : Type*}
variable {role : α → ρ}

section

variable (moved : g = update f x a)
include moved

/-- Who plays a role after a move is the thread that moved or played it before. -/
theorem role_cases {r : ρ} {y : ι}
    (plays : role (g y) = r) : y = x ∧ role a = r ∨ y ≠ x ∧ role (f y) = r := by
  rw [moved] at plays
  exact update_cases (P := fun b => role b = r) plays

/-- A role that the moving thread does not take up was played before. -/
theorem role_before {r : ρ} {y : ι}
    (not : role a ≠ r) (plays : role (g y) = r) : y ≠ x ∧ role (f y) = r :=
  (role_cases moved plays).resolve_left fun new => not new.2

/-- A role that the moving thread does not give up is still played. -/
theorem role_after {r : ρ} {y : ι}
    (not : role (f x) ≠ r) (plays : role (f y) = r) : role (g y) = r := by
  have ne : y ≠ x := by
    rintro rfl
    exact not plays
  rwa [moved, update_of_ne ne]

/-- A role that only the moving thread could play is played if it has taken it up. -/
theorem role_somebody {r : ρ}
    (others : ∀ y, y ≠ x → role (f y) ≠ r) : (∃ y, role (g y) = r) ↔ role a = r := by
  rw [moved, exists_update_iff f fun _ b => role b = r]
  exact or_iff_left fun ⟨y, ne, old⟩ => others y ne old

theorem role_nobody {r : ρ}
    (others : ∀ y, y ≠ x → role (f y) ≠ r) : (∀ y, role (g y) ≠ r) ↔ role a ≠ r := by
  rw [Ne, ← role_somebody moved others, not_exists]

end

/-- A role that the moving thread keeps is played by the same threads as before. -/
theorem role_same (role : α → ρ) (moved : g = update f x a) (same : role a = role (f x))
    (y : ι) : role (g y) = role (f y) := by
  rw [moved]
  by_cases eq : y = x
  · subst eq
    rw [update_self, same]
  · rw [update_of_ne eq]

end Updates

section Counts

variable {α : Type*} {l : List α} {i : ℕ} {old : α}

/-- The number of threads with a property, when one thread has moved. -/
theorem countP_set_add (new : α) (p : α → Bool) (here : l[i]? = some old) :
    (l.set i new).countP p + (if p old then 1 else 0) = l.countP p + if p new then 1 else 0 := by
  obtain ⟨bound, rfl⟩ := List.getElem?_eq_some_iff.mp here
  rw [List.countP_set bound]
  by_cases held : p l[i]
  · have positive : 0 < l.countP p := List.countP_pos_iff.mpr ⟨_, List.getElem_mem bound, held⟩
    simp only [held, if_true]
    omega
  · simp [held]

end Counts

section Words

variable {ω : Type*} [DecidableEq ω] {V : ω → Type*} {a b : (w : ω) → V w} {left : List ω}

/-- One word of a block of memory copied into another block.  A copy of the block is a list of such
moves, and other threads run in between. -/
def copyWord (source target : (w : ω) → V w) (w : ω) : (w : ω) → V w :=
  Function.update target w (source w)

/-- Two blocks agree on every word but those that are still to be copied. -/
def AgreeOff (left : List ω) (a b : (w : ω) → V w) : Prop := ∀ w, w ∉ left → a w = b w

omit [DecidableEq ω] in
theorem AgreeOff.of_forall_mem (all : ∀ w, w ∈ left) : AgreeOff left a b :=
  fun w outside => absurd (all w) outside

omit [DecidableEq ω] in
theorem AgreeOff.eq (agree : AgreeOff [] a b) : a = b :=
  funext fun w => agree w List.not_mem_nil

theorem AgreeOff.copyWord {w : ω} (agree : AgreeOff (w :: left) a b) :
    AgreeOff left (copyWord b a w) b := by
  intro v outside
  by_cases same : v = w
  · subst same
    exact update_self ..
  · rw [RtRuntime.copyWord, update_of_ne same]
    exact agree v (by simp [same, outside])

end Words

end RtRuntime
