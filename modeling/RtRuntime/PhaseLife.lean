import RtRuntime.PhaseExecution

/-!
# The life of a phase

A phase goes through one life: unstarted, running, waiting for its completion, finishing.  Its work
item and its external completion keep it on that way whatever the order in which they move, and what
the parties hold of the pending count is known at each point of it.
-/

namespace RtRuntime

open PhaseSlot

section Counts

variable {n : ℕ}

/-- A sum over phases after one of them has changed. -/
theorem sum_update {σ : Type*} (w : Fin n → σ → ℕ) (f : Fin n → σ) (p : Fin n) (x : σ) :
    (∑ q, w q (Function.update f p x q)) + w p (f p) = (∑ q, w q (f q)) + w p x := by
  have changed : (fun q => w q (Function.update f p x q)) =
      Function.update (fun q => w q (f q)) p (w p x) :=
    funext (Function.apply_update w f p x)
  rw [changed, Finset.sum_update_of_mem (Finset.mem_univ p),
    ← Finset.add_sum_erase Finset.univ (fun q => w q (f q)) (Finset.mem_univ p),
    Finset.sdiff_singleton_eq_erase]
  omega

def ItemPc.weight : ItemPc → ℕ
  | .absent | .gone => 0
  | _ => 1

def FinishPc.weight : FinishPc n → ℕ
  | .none | .done _ => 0
  | .pushing _ _ => 2
  | _ => 1

/-- What a phase holds of the pending count beside its work item, from `execute_phase` to the end of
`finish_phase`. -/
def PhaseSlot.hold (slot : PhaseSlot n) : ℕ :=
  match slot.item with
  | .entered | .running | .returned | .sawExternalReady => 1
  | _ => if slot.state = .pending then 1 else slot.finish.weight

def PhaseSlot.weight (slot : PhaseSlot n) : ℕ := slot.item.weight + slot.hold

def RunPc.weight : RunPc n → ℕ
  | .pushing _ _ => 1
  | _ => 0

/-- The successors whose indegree `finish_phase` has not lowered. -/
def FinishPc.unreleased (successors : List (Fin n)) : FinishPc n → List (Fin n)
  | .releasing rest | .counting _ rest | .pushing _ rest | .dropping rest | .done rest => rest
  | _ => successors

/-- Whether `finish_phase` is about to submit `p`. -/
def FinishPc.submits (p : Fin n) : FinishPc n → ℕ
  | .counting q _ | .pushing q _ => if q = p then 1 else 0
  | _ => 0

/-- How often `run` is going to submit `p`. -/
def RunPc.submits (p : Fin n) : RunPc n → ℕ
  | .submitting rest => rest.count p
  | .pushing q rest => (q :: rest).count p
  | .returned _ _ _ => 0

def ItemPc.submitted : ItemPc → ℕ
  | .absent => 0
  | _ => 1

end Counts

section Life

variable {n : ℕ}

/-- What the point in `finish_phase` says about the status it was called with. -/
def FinishServes (successors : List (Fin n)) (status : Status) : FinishPc n → Prop
  | .none => False
  | .recording s => s = status ∧ status ≠ .ok
  | .cancelling | .loading | .lowering _ => status ≠ .ok
  | .checking | .releasing _ | .counting _ _ | .pushing _ _ => status = .ok
  | .dropping rest | .done rest => status ≠ .ok → rest = successors

/-- The life of a phase. -/
inductive SlotServes (result : CallbackResult) (successors : List (Fin n)) : PhaseSlot n → Prop
  | unstarted (item : ItemPc) (status : Status)
      (at_item : item = .absent ∨ item = .queued ∨ item = .checked ∨ item = .entered) :
      SlotServes result successors ⟨item, .idle, status, .idle, .none, 0, []⟩
  | skipped (item : ItemPc) (status : Status) (at_item : item = .leaving ∨ item = .gone) :
      SlotServes result successors ⟨item, .idle, status, .idle, .none, 0, []⟩
  | running (item : ItemPc) (status : Status) (external : ExternalPc)
      (at_item : item = .running ∨ item = .returned)
      (at_external : external = .idle ∨
        (external = .stored ∨ external = .sawDispatching) ∧ result = .pending status) :
      SlotServes result successors ⟨item, .dispatching, status, external, .none, 1, []⟩
  | ready (item : ItemPc) (status : Status)
      (at_item : item = .running ∨ item = .returned ∨ item = .sawExternalReady)
      (pending : result = .pending status) :
      SlotServes result successors ⟨item, .externalReady, status, .done, .none, 1, []⟩
  | waiting (item : ItemPc) (status completion : Status) (external : ExternalPc)
      (at_item : item = .leaving ∨ item = .gone) (at_external : external ≠ .done)
      (pending : result = .pending completion) :
      SlotServes result successors ⟨item, .pending, status, external, .none, 1, []⟩
  | finishing (item : ItemPc) (status : Status) (external : ExternalPc) (finish : FinishPc n)
      (at_item : item = .leaving ∨ item = .gone)
      (at_external : external = .done ∨ external = .idle ∧ ∀ c, result ≠ .pending c)
      (serves : FinishServes successors result.status finish) :
      SlotServes result successors
        ⟨item, .finalized, status, external, finish, 1, [result.status]⟩

attribute [simp] PhaseSlot.weight PhaseSlot.hold

theorem FinishServes.enter (successors : List (Fin n)) (status : Status) :
    FinishServes successors status (.enter status) := by
  unfold FinishPc.enter
  split
  next h => exact h
  next h => exact ⟨rfl, h⟩

@[simp]
theorem FinishPc.enter_weight (status : Status) : (FinishPc.enter status : FinishPc n).weight = 1 := by
  unfold FinishPc.enter
  split <;> rfl

@[simp]
theorem FinishPc.enter_unreleased (successors : List (Fin n)) (status : Status) :
    (FinishPc.enter status : FinishPc n).unreleased successors = successors := by
  unfold FinishPc.enter
  split <;> rfl

@[simp]
theorem FinishPc.enter_submits (p : Fin n) (status : Status) :
    (FinishPc.enter status : FinishPc n).submits p = 0 := by
  unfold FinishPc.enter
  split <;> rfl

def PhaseSlot.Failed (slot : PhaseSlot n) : Prop := ∃ status ≠ Status.ok, slot.finished = [status]

/-- The work item found the graph cancelled. -/
def PhaseSlot.Skipped (slot : PhaseSlot n) : Prop :=
  slot.started = 0 ∧ (slot.item = .leaving ∨ slot.item = .gone)

/-- `finish_phase` is over, or only its pending count is left to drop. -/
def FinishPc.Ended : FinishPc n → Prop
  | .dropping _ | .done _ => True
  | _ => False

/-- A step by which a phase does not touch the others. -/
structure Advances (result : CallbackResult) (successors : List (Fin n)) (cancelled : Bool)
    (slot slot' : PhaseSlot n) : Prop where
  serves : SlotServes result successors slot'
  unreleased : slot'.finish.unreleased successors = slot.finish.unreleased successors
  submits : ∀ p, slot'.finish.submits p = slot.finish.submits p
  submitted : slot'.item.submitted = slot.item.submitted
  failed : slot.Failed → slot'.Failed
  skipped : slot'.Skipped → slot.Skipped ∨ cancelled = true
  ended : slot'.finish.Ended → slot.finish.Ended ∧ slot'.finished = slot.finished
  observed : ∀ o, slot'.finish = .lowering o → slot.finish = .lowering o

variable {successors : List (Fin n)} {slot slot' : PhaseSlot n} {result : CallbackResult}
  {cancelled : Bool}

/-- A step that leaves `finish_phase` and what was recorded about the phase alone. -/
theorem Advances.keep (serves : SlotServes result successors slot')
    (finish : slot'.finish = slot.finish) (finished : slot'.finished = slot.finished)
    (submitted : slot'.item.submitted = slot.item.submitted)
    (skipped : slot'.Skipped → slot.Skipped ∨ cancelled = true) :
    Advances result successors cancelled slot slot' where
  serves := serves
  unreleased := by rw [finish]
  submits := fun p => by rw [finish]
  submitted := submitted
  failed := fun ⟨status, bad, recorded⟩ => ⟨status, bad, finished.trans recorded⟩
  skipped := skipped
  ended := fun ended => ⟨finish ▸ ended, finished⟩
  observed := fun o at_o => finish ▸ at_o

/-- A step that finalizes the phase. -/
theorem Advances.finalize (serves : SlotServes result successors slot')
    (before : slot.finish = .none) (unfinished : slot.finished = [])
    (after : slot'.finish = .enter result.status) (started : slot'.started = 1)
    (submitted : slot'.item.submitted = slot.item.submitted) :
    Advances result successors cancelled slot slot' where
  serves := serves
  unreleased := by rw [before, after, FinishPc.enter_unreleased]; rfl
  submits := fun p => by rw [before, after, FinishPc.enter_submits]; rfl
  submitted := submitted
  failed := fun ⟨status, bad, recorded⟩ => by simp [unfinished] at recorded
  skipped := fun ⟨unstarted, _⟩ => by simp [started] at unstarted
  ended := fun ended => by
    rw [after, FinishPc.enter] at ended
    split at ended <;> exact ended.elim
  observed := fun o at_o => by
    rw [after, FinishPc.enter] at at_o
    split at at_o <;> cases at_o

attribute [simp] PhaseSlot.Skipped

/-- A work item keeps its phase on its way, accounts for what it holds, and never finds a state that
it does not expect. -/
theorem SlotServes.stepItem {pending : ℕ} {effect : ItemEffect n}
    (h : SlotServes result successors slot) (held : slot.weight ≤ pending)
    (stepped : slot.stepItem result cancelled pending = some effect) :
    effect.broken = false ∧ Advances result successors cancelled slot effect.slot ∧
      effect.pending + slot.weight = pending + effect.slot.weight := by
  cases h with
  | unstarted item status at_item =>
    rcases at_item with rfl | rfl | rfl | rfl
    · simp [stepItem] at stepped
    · cases stepped
      cases cancelled with
      | true =>
        exact ⟨rfl, .keep (.skipped _ _ (.inl rfl)) rfl rfl rfl fun _ => .inr rfl, rfl⟩
      | false =>
        exact ⟨rfl, .keep (.unstarted _ _ (by simp)) rfl rfl rfl (by simp), rfl⟩
    · cases stepped
      refine ⟨rfl, .keep (.unstarted _ _ (by simp)) rfl rfl rfl (by simp), ?_⟩
      simp [ItemPc.weight, FinishPc.weight]
    · cases stepped
      exact ⟨rfl, .keep (.running _ _ _ (.inl rfl) (.inl rfl)) rfl rfl rfl (by simp), rfl⟩
  | skipped item status at_item =>
    rcases at_item with rfl | rfl
    · cases stepped
      refine ⟨rfl, .keep (.skipped _ _ (.inr rfl)) rfl rfl rfl
        (fun _ => .inl ⟨rfl, .inl rfl⟩), ?_⟩
      simp [ItemPc.weight, FinishPc.weight] at held ⊢
      omega
    · simp [stepItem] at stepped
  | running item status external at_item at_external =>
    rcases at_item with rfl | rfl
    · cases stepped
      exact ⟨rfl, .keep (.running _ _ _ (.inr rfl) at_external) rfl rfl rfl (by simp), rfl⟩
    · cases result with
      | returns result =>
        cases stepped
        obtain rfl : external = .idle := by
          rcases at_external with idle | ⟨-, other⟩
          · exact idle
          · cases other
        refine ⟨rfl, .finalize (.finishing _ _ _ _ (.inl rfl) (.inr ⟨rfl, by simp⟩) (.enter _ _))
          rfl rfl rfl rfl rfl, ?_⟩
        simp [ItemPc.weight, finalize]
      | pending completion =>
        cases stepped
        refine ⟨rfl, .keep (.waiting _ _ completion _ (.inl rfl) ?_ rfl) rfl rfl rfl (by simp), rfl⟩
        rcases at_external with rfl | ⟨rfl | rfl, -⟩ <;> simp
  | ready item status at_item is_pending =>
    subst is_pending
    rcases at_item with rfl | rfl | rfl
    · cases stepped
      exact ⟨rfl, .keep (.ready _ _ (.inr (.inl rfl)) rfl) rfl rfl rfl (by simp), rfl⟩
    · cases stepped
      exact ⟨rfl, .keep (.ready _ _ (.inr (.inr rfl)) rfl) rfl rfl rfl (by simp), rfl⟩
    · cases stepped
      refine ⟨rfl, .finalize (.finishing _ _ _ _ (.inl rfl) (.inl rfl) (.enter _ _))
        rfl rfl rfl rfl rfl, ?_⟩
      simp [ItemPc.weight, finalize]
  | waiting item status completion external at_item at_external is_pending =>
    rcases at_item with rfl | rfl
    · cases stepped
      refine ⟨rfl, .keep (.waiting _ _ completion _ (.inr rfl) at_external is_pending)
        rfl rfl rfl (by simp), ?_⟩
      simp [ItemPc.weight] at held ⊢
      omega
    · simp [stepItem] at stepped
  | finishing item status external finish at_item at_external serves =>
    rcases at_item with rfl | rfl
    · cases stepped
      refine ⟨rfl, .keep (.finishing _ _ _ _ (.inr rfl) at_external serves) rfl rfl rfl (by simp), ?_⟩
      simp [ItemPc.weight] at held ⊢
      omega
    · simp [stepItem] at stepped

/-- An external completion keeps its phase on its way and finalizes it at most once, with the status
it brings. -/
theorem SlotServes.stepExternal {completion : Status} (cancelled : Bool)
    (h : SlotServes (.pending completion) successors slot)
    (stepped : slot.stepExternal completion = some slot') :
    Advances (.pending completion) successors cancelled slot slot' ∧
      slot'.weight = slot.weight := by
  cases h with
  | unstarted item status at_item | skipped item status at_item
  | ready item status at_item is_pending => simp [stepExternal] at stepped
  | running item status external at_item at_external =>
    rcases at_external with rfl | ⟨rfl | rfl, same⟩
    · cases stepped
      exact ⟨.keep (.running _ _ _ at_item (.inr ⟨.inl rfl, rfl⟩)) rfl rfl rfl (by simp), rfl⟩
    · cases stepped
      exact ⟨.keep (.running _ _ _ at_item (.inr ⟨.inr rfl, same⟩)) rfl rfl rfl (by simp), rfl⟩
    · cases stepped
      refine ⟨.keep (.ready _ _ (by tauto) same) rfl rfl rfl (by simp), ?_⟩
      rcases at_item with rfl | rfl <;> rfl
  | waiting item status c external at_item at_external is_pending =>
    obtain rfl : completion = c := by simpa using is_pending
    have finalized : Advances (.pending completion) successors cancelled
        ⟨item, .pending, status, external, .none, 1, []⟩
        ⟨item, .finalized, status, .done, .enter completion, 1, [completion]⟩ :=
      .finalize (.finishing _ _ _ _ at_item (.inl rfl) (.enter _ _)) rfl rfl rfl rfl rfl
    have same_weight : weight
        (⟨item, .finalized, status, .done, .enter completion, 1, [completion]⟩ : PhaseSlot n) =
        weight (⟨item, .pending, status, external, .none, 1, []⟩ : PhaseSlot n) := by
      rcases at_item with rfl | rfl <;> simp
    cases external with
    | idle | sawDispatching =>
      cases stepped
      exact ⟨.keep (.waiting _ _ _ _ at_item (by simp) rfl) rfl rfl rfl (by simp), rfl⟩
    | stored | sawPending =>
      cases stepped
      exact ⟨finalized, same_weight⟩
    | done => exact absurd rfl at_external
  | finishing item status external finish at_item at_external serves =>
    rcases at_external with rfl | ⟨-, other⟩
    · simp [stepExternal] at stepped
    · exact absurd rfl (other completion)

end Life

end RtRuntime

