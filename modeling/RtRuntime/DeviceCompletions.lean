import RtRuntime.DeviceAccounts
import RtRuntime.SubmissionRuns
import RtRuntime.DeviceHandover

/-!
# What the graph hears of device work

The device manager has the slots of single submissions and, for each backend, the slots of command
batches.  They share no slot and no party's way leads from one into the other; what they share is
the counter of outstanding work, to which each adds its own.
-/

namespace RtRuntime

variable {κ ι π τ : Type*} {n : ℕ}

section Manager

/-- The single submissions and the batches of `n` backends. -/
structure DeviceWork (κ ι π τ : Type*) (n : ℕ) where
  singles : SubmissionManager κ π
  backends : Fin n → BatchManager ι τ

inductive WorkAction (κ ι π τ : Type*) (n : ℕ)
  | single (action : SubmissionAction κ π)
  | batch (backend : Fin n) (action : BatchAction ι τ)

namespace DeviceWork

variable (s : DeviceWork κ ι π τ n)

/-- `outstanding_count_`. -/
def outstandingCount : ℕ :=
  s.singles.outstanding + ∑ b, (s.backends b).outstanding

/-- Nobody is on its way. -/
def Quiescent : Prop :=
  (∀ x, s.singles.pcs x = .idle) ∧ ∀ b x, (s.backends b).pcs x = .idle

/-- The accepted slots that are not free: those of single submissions and those of batches. -/
noncomputable def busySlots : ℕ :=
  {k | (s.singles.slots k).state ≠ .free}.ncard + ∑ b, {k | (s.backends b).Holds k}.ncard

structure Fresh : Prop where
  singles : s.singles.Fresh
  backends : ∀ b, (s.backends b).Fresh

/-- No single submission acquires a slot between its release and the call of `complete_external`,
and releases of rate batches keep their rule. -/
def Orderly : WorkAction κ ι π τ n → Prop
  | .single action => s.singles.Unhurried action
  | .batch b action => (s.backends b).Disciplined action

variable [DecidableEq κ] [DecidableEq ι] [DecidableEq π] [DecidableEq τ]

def act (allSlots : List ι) (s : DeviceWork κ ι π τ n) :
    WorkAction κ ι π τ n → Option (DeviceWork κ ι π τ n)
  | .single action => (s.singles.act action).map fun t => { s with singles := t }
  | .batch b action =>
    ((s.backends b).act allSlots action).map fun t =>
      { s with backends := Function.update s.backends b t }

instance decidableOrderly [Fintype π] (s : DeviceWork κ ι π τ n) :
    (action : WorkAction κ ι π τ n) → Decidable (s.Orderly action)
  | .single action => SubmissionManager.decidableUnhurried s.singles action
  | .batch b action => decidableDisciplined (s.backends b) action

end DeviceWork

end Manager

section Books

/-- The books of all device work. -/
structure WorkBooks (s : DeviceWork κ ι π τ n) : Prop where
  singles : SubmissionBooks s.singles
  backends : ∀ b, BatchAccounts (s.backends b)

theorem DeviceWork.Fresh.books {s : DeviceWork κ ι π τ n} (fresh : s.Fresh) : WorkBooks s :=
  ⟨fresh.singles.books, fun b => (fresh.backends b).accounts⟩

theorem WorkBooks.act [DecidableEq κ] [DecidableEq ι] [DecidableEq π] [DecidableEq τ]
    {s s' : DeviceWork κ ι π τ n} (h : WorkBooks s) {allSlots : List ι}
    {action : WorkAction κ ι π τ n} (orderly : s.Orderly action)
    (stepped : s.act allSlots action = some s') : WorkBooks s' := by
  cases action with
  | single action =>
    obtain ⟨t, moved, rfl⟩ := Option.map_eq_some_iff.mp stepped
    exact ⟨h.singles.act orderly moved, h.backends⟩
  | batch b action =>
    obtain ⟨t, moved, rfl⟩ := Option.map_eq_some_iff.mp stepped
    refine ⟨h.singles, fun c => ?_⟩
    by_cases same : c = b
    · subst same
      simp only [Function.update_self]
      exact (h.backends c).act orderly moved
    · simp only [Function.update_of_ne same]
      exact h.backends c

section

variable {s : SubmissionManager κ π} (h : SubmissionBooks s) (idle : ∀ x, s.pcs x = .idle)
include h idle

/-- With every thread idle, a slot holds an accepted submission exactly when it is not free. -/
theorem SubmissionBooks.holds_iff (k : κ) : s.Holds k ↔ (s.slots k).state ≠ .free := by
  constructor
  · rintro (submitted | ⟨x, carries⟩)
    · simp [submitted]
    · rw [idle] at carries
      cases carries
  · intro busy
    by_contra none
    obtain ⟨x, tends⟩ := h.tended.tended k busy fun submitted => none (.inl submitted)
    rw [idle] at tends
    cases tends

theorem SubmissionBooks.outstanding_eq :
    s.outstanding = {k | (s.slots k).state ≠ .free}.ncard := by
  have same : {k | (s.slots k).state ≠ .free} = {k | s.Counted k} := by
    ext k
    simp [SubmissionManager.Counted, h.holds_iff idle, idle, SubmissionPc.uncounted]
  rw [same, Set.ncard, h.counted, ENat.toNat_natCast]

theorem SubmissionBooks.settled {e : ℕ × ℕ} (member : e ∈ s.accepted) :
    (e ∈ s.completions ∧ e.1 ∈ s.freed) ∨
      ∃ k, (s.slots k).state = .submitted ∧ (s.slots k).ticket = e.1 ∧
        e.1 ∉ s.completions.map Prod.fst ∧ e.1 ∉ s.freed := by
  refine (h.ledger.settled (fun x => ?_) (fun k => ?_) member trivial).imp_right ?_
  · simp [SubmissionManager.ledger, idle, SubmissionPc.owes]
  · simp [SubmissionManager.ledger, idle, SubmissionPc.told]
  · rintro ⟨k, submitted | ⟨x, carries⟩, rfl, untold, kept⟩
    · exact ⟨k, submitted, rfl, untold, kept⟩
    · rw [idle] at carries
      cases carries

end

theorem BatchBooks.outstanding_eq {s : BatchManager ι τ} (h : BatchBooks s)
    (idle : ∀ x, s.pcs x = .idle) : s.outstanding = {k | s.Holds k}.ncard := by
  have same : {k | s.Holds k} = {k | s.Counted k} := by
    ext k
    simp [BatchManager.Counted, idle, BatchPc.drops, BatchPc.counts]
  rw [same, Set.ncard, h.counted, ENat.toNat_natCast]

theorem BatchBooks.settled {s : BatchManager ι τ} (h : BatchBooks s)
    (idle : ∀ x, s.pcs x = .idle) {b : DeviceBatch} (member : b ∈ s.accepted)
    (ordinary : b.request.rateIdentity = none) :
    ((b.batchId, b.request.phaseIndex) ∈ s.completions ∧ b.batchId ∈ s.freed) ∨
      ∃ k, s.Holds k ∧ (s.slots k).batch = b ∧
        b.batchId ∉ s.completions.map Prod.fst ∧ b.batchId ∉ s.freed :=
  h.ledger.settled (fun x => by simp [BatchManager.ledger, idle, BatchPc.owes]) (fun _ => id) member
    ordinary

/-- What the graph hears of was accepted as an ordinary batch of that phase. -/
theorem BatchBooks.heard {s : BatchManager ι τ} (h : BatchBooks s) {e : ℕ × ℕ}
    (member : e ∈ s.completions) : s.Ordinary e.1 e.2 := by
  obtain ⟨b, known, ordinary, rfl⟩ := h.ledger.heardNews e member
  exact ⟨b, known, rfl, rfl, ordinary⟩

end Books

section Completions

variable [DecidableEq κ] [DecidableEq ι] [DecidableEq π] [DecidableEq τ]

end Completions

section Runs

/-- One slot for single submissions and one backend; nothing submitted. -/
def oneBackend : DeviceWork (Fin 1) (Fin 2) Bool Bool 1 where
  singles :=
    { slots := fun _ => ⟨.free, 0, 0, 0, .ok, 0⟩
      pcs := fun _ => .idle
      outstanding := 0
      nextSubmissionId := 1
      nextTicket := 0
      accepted := []
      completions := []
      freed := [] }
  backends := fun _ => twoBatchSlots

theorem oneBackend_fresh : oneBackend.Fresh :=
  ⟨⟨fun _ => rfl, fun _ => rfl, rfl, rfl, rfl, rfl⟩, fun _ => twoBatchSlots_fresh⟩

/-- A thread takes a number of steps and the vendor accepts. -/
def threadRun (thread : Bool) (count : ℕ) : List (WorkAction (Fin 1) (Fin 2) Bool Bool 1) :=
  List.replicate count (.single (.step thread .ok))

/-- A submission for phase 3 is accepted and published, and the other thread takes its completion as
far as the freed slot. -/
def freedRun : List (WorkAction (Fin 1) (Fin 2) Bool Bool 1) :=
  [.single (.submit false 0 ⟨0, 3⟩)] ++ threadRun false 5 ++
    [.single (.look true 0 (.completion 0 1 .ok))] ++ threadRun true 4

/-- The completion is reported, and an ordinary batch is submitted to the backend. -/
def reportedRun : List (WorkAction (Fin 1) (Fin 2) Bool Bool 1) :=
  freedRun ++ threadRun true 1 ++ (submitRun false 0 signalRequest).map (.batch 0)

/-- The slot is acquired and filled for phase 5 before the completion of phase 3 is reported. -/
def reacquiredRun : List (WorkAction (Fin 1) (Fin 2) Bool Bool 1) :=
  freedRun ++ [.single (.submit false 0 ⟨0, 5⟩)] ++ threadRun false 1 ++ threadRun true 1

end Runs

end RtRuntime
