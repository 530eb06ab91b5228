import RtRuntime.Basic
import RtRuntime.Interleaving

/-!
# Single device submissions

`submit` acquires a slot, hands the submission to the vendor and, once the vendor has accepted it,
publishes it; `process_completion` and `fail_backend_outstanding` take completions and failures to
the slots.  A completion may arrive before the vendor's call has returned; it is then left in the
slot for the submitting thread.

Any number of threads take part and each moves by one access to shared memory at a time.  Accepted
submissions are told apart by a ticket that the code does not have: the id of a submission is a
64-bit number that comes round again.
-/

namespace RtRuntime

section Data

/-- The state word of an `Outstanding` slot. -/
inductive SubmissionState
  | free
  | owned
  | submitting
  | submitted
  | earlyReady
  deriving DecidableEq, Repr

structure SubmissionRequest where
  backendIndex : ℕ
  phaseIndex : ℕ
  deriving DecidableEq, Repr

structure SubmissionSlot where
  state : SubmissionState
  submissionId : ℕ
  backendIndex : ℕ
  phaseIndex : ℕ
  earlyStatus : Status
  ticket : ℕ
  deriving DecidableEq, Repr

/-- Why a thread looks at a slot: a completion that the vendor of a backend reported, or a failure of
the backend. -/
inductive CompletionReason
  | completion (backendIndex submissionId : ℕ) (status : Status)
  | failure (backendIndex : ℕ) (status : Status)
  deriving DecidableEq, Repr

def CompletionReason.status : CompletionReason → Status
  | .completion _ _ status | .failure _ status => status

/-- The point a thread has reached. -/
inductive SubmissionPc (κ : Type*)
  | idle
  -- `submit`
  | acquired (slot : κ) (request : SubmissionRequest)
  | filled (slot : κ)
  | calling (slot : κ)
  | rejected (slot : κ)
  | accepted (slot : κ)
  | counted (slot : κ)
  | sawEarly (slot : κ)
  -- `process_completion` and `fail_backend_outstanding`: a loaded state, then what follows from it
  | loaded (slot : κ) (state : SubmissionState) (reason : CompletionReason)
  | saw (slot : κ) (state : SubmissionState) (reason : CompletionReason)
  | wrote (slot : κ) (reason : CompletionReason)
  -- `finalize_completion`
  | finalizing (slot : κ) (status : Status)
  | freeing (slot : κ) (status : Status)
  | completing (slot : κ) (ticket : ℕ) (status : Status)
  -- the end of `fail_backend_outstanding`
  | failing (slot : κ) (status : Status)
  | failedCounted (slot : κ)
  | failedFreeing (slot : κ)
  deriving DecidableEq, Repr

/-- The freed slot for which `complete_external` is still to be called. -/
def SubmissionPc.calls {κ : Type*} : SubmissionPc κ → Option κ
  | .completing k _ _ => some k
  | _ => none

/-- The single submissions.  The last fields are kept for the statements: the accepted submissions
with their phases, the calls of `complete_external` by ticket and phase, and the submissions
whose slot was freed. -/
structure SubmissionManager (κ π : Type*) where
  slots : κ → SubmissionSlot
  pcs : π → SubmissionPc κ
  outstanding : ℕ
  nextSubmissionId : ℕ
  nextTicket : ℕ
  accepted : List (ℕ × ℕ)
  completions : List (ℕ × ℕ)
  freed : List ℕ

inductive SubmissionAction (κ π : Type*)
  | submit (thread : π) (slot : κ) (request : SubmissionRequest)
  | look (thread : π) (slot : κ) (reason : CompletionReason)
  | step (thread : π) (vendor : Status)
  deriving DecidableEq

end Data

section Steps

variable {κ π : Type*} [DecidableEq κ] [DecidableEq π]

namespace SubmissionManager

variable (s : SubmissionManager κ π)

def setPc (x : π) (pc : SubmissionPc κ) : SubmissionManager κ π :=
  { s with pcs := Function.update s.pcs x pc }

def setSlot (k : κ) (slot : SubmissionSlot) : SubmissionManager κ π :=
  { s with slots := Function.update s.slots k slot }

def setState (k : κ) (state : SubmissionState) :
    SubmissionManager κ π :=
  s.setSlot k { s.slots k with state := state }

/-- `compare_exchange_strong` on the state word, and where the thread goes from there. -/
def cas (k : κ) (expected target : SubmissionState) (x : π)
    (success failure : SubmissionPc κ) : SubmissionManager κ π :=
  if (s.slots k).state = expected then (s.setState k target).setPc x success
  else s.setPc x failure

/-- `next_submission_id_.fetch_add(1)`, taken again when it gave 0. -/
def takeId (next : ℕ) : ℕ × ℕ :=
  if next = 0 then (1, 2) else (next, (next + 1) % 2 ^ 64)

/-- Whether a loaded state and the fields of the slot are those that a thread looks for. -/
def concerns (slot : SubmissionSlot) (state : SubmissionState) : CompletionReason → Bool
  | .completion backendIndex submissionId _ =>
    (state == .submitting || state == .submitted) && slot.submissionId == submissionId &&
      slot.backendIndex == backendIndex
  | .failure backendIndex _ =>
    (state == .submitting || state == .submitted) && slot.backendIndex == backendIndex

/-- Where a thread goes with a slot that it has claimed. -/
def claimed (k : κ) : CompletionReason → SubmissionPc κ
  | .completion _ _ status => .finalizing k status
  | .failure _ status => .failing k status

/-- The next access of a thread; `vendor` is what the vendor's submit returns. -/
def step (x : π) (vendor : Status) : Option (SubmissionManager κ π) :=
  match s.pcs x with
  | .idle => none
  | .acquired k request =>
    some { (s.setSlot k { s.slots k with
        submissionId := (takeId s.nextSubmissionId).1
        backendIndex := request.backendIndex
        phaseIndex := request.phaseIndex
        ticket := s.nextTicket }).setPc x (.filled k) with
      nextSubmissionId := (takeId s.nextSubmissionId).2
      nextTicket := s.nextTicket + 1 }
  | .filled k => some ((s.setState k .submitting).setPc x (.calling k))
  | .calling k =>
    if vendor = .ok then
      some { s.setPc x (.accepted k) with
        accepted := s.accepted ++ [((s.slots k).ticket, (s.slots k).phaseIndex)] }
    else some (s.setPc x (.rejected k))
  | .rejected k => some ((s.setState k .free).setPc x .idle)
  | .accepted k => some { s.setPc x (.counted k) with outstanding := s.outstanding + 1 }
  | .counted k =>
    -- a slot that is neither submitting nor early ready makes `submit` fail the whole backend,
    -- which is a look at every slot
    some (s.cas k .submitting .submitted x .idle
      (if (s.slots k).state = .earlyReady then .sawEarly k else .idle))
  | .sawEarly k => some (s.cas k .earlyReady .owned x (.finalizing k (s.slots k).earlyStatus) .idle)
  | .loaded k state reason =>
    some (s.setPc x (if concerns (s.slots k) state reason then .saw k state reason else .idle))
  | .saw k state reason =>
    if state = .submitting then
      some ((s.setSlot k { s.slots k with earlyStatus := reason.status }).setPc x (.wrote k reason))
    else some (s.cas k .submitted .owned x (claimed k reason) .idle)
  | .wrote k reason =>
    some (s.cas k .submitting .earlyReady x .idle
      (if (s.slots k).state = .submitted then .saw k .submitted reason else .idle))
  | .finalizing k status =>
    some { s.setPc x (.freeing k status) with outstanding := s.outstanding - 1 }
  | .freeing k status =>
    some { (s.setState k .free).setPc x (.completing k (s.slots k).ticket status) with
      freed := s.freed ++ [(s.slots k).ticket] }
  | .completing k ticket _ =>
    -- `slot.phase_index` is read after the slot was freed
    some { s.setPc x .idle with
      completions := s.completions ++ [(ticket, (s.slots k).phaseIndex)] }
  | .failing k _ =>
    some { s.setPc x (.failedCounted k) with
      completions := s.completions ++ [((s.slots k).ticket, (s.slots k).phaseIndex)] }
  | .failedCounted k =>
    some { s.setPc x (.failedFreeing k) with outstanding := s.outstanding - 1 }
  | .failedFreeing k =>
    some { (s.setState k .free).setPc x .idle with freed := s.freed ++ [(s.slots k).ticket] }

/-- One access to shared memory by one thread. -/
def act : SubmissionAction κ π → Option (SubmissionManager κ π)
  | .submit x k request =>
    match s.pcs x with
    | .idle =>
      if (s.slots k).state = .free then
        some ((s.setState k .owned).setPc x (.acquired k request))
      else none
    | _ => none
  | .look x k reason =>
    match s.pcs x with
    | .idle => some (s.setPc x (.loaded k (s.slots k).state reason))
    | _ => none
  | .step x vendor => s.step x vendor

/-- A manager that has started: every slot is free and every thread idle. -/
structure Fresh : Prop where
  slots : ∀ k, (s.slots k).state = .free
  pcs : ∀ x, s.pcs x = .idle
  outstanding : s.outstanding = 0
  accepted : s.accepted = []
  completions : s.completions = []
  freed : s.freed = []

/-- No slot is acquired while a thread that has freed it has not called `complete_external` yet. -/
def Unhurried : SubmissionAction κ π → Prop
  | .submit _ k _ => ∀ y, (s.pcs y).calls ≠ some k
  | _ => True

instance decidableUnhurried [Fintype π] (s : SubmissionManager κ π) :
    (action : SubmissionAction κ π) → Decidable (s.Unhurried action)
  | .submit _ k _ => inferInstanceAs (Decidable (∀ y, (s.pcs y).calls ≠ some k))
  | .look _ _ _ | .step _ _ => isTrue trivial

end SubmissionManager

end Steps

end RtRuntime
