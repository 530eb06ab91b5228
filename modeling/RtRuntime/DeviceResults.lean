import RtRuntime.DeviceTerminals
import RtRuntime.DeviceHandover

/-!
# Results of rate batches over whole runs

The invariant of `DeviceTerminals` is kept by every step, and with it go two facts about single
steps: quarantined slots stay, and a timeline moves only for a batch that is being finished.  A run
in which a slot is reused under a look at it shows what the compare-and-swap does not notice.
-/

namespace RtRuntime

open BatchManager

variable {κ τ : Type*}

section Runs

variable {reported : ℕ → Prop} {s : BatchManager κ τ}

theorem BatchManager.Rested.disciplined {action : BatchAction κ τ} (h : s.Rested action) :
    s.Disciplined action := by
  cases action with
  | releaseStep t => exact h
  | _ => trivial

theorem BatchManager.Fresh.terminals (fresh : s.Fresh) : Terminals reported s := by
  refine ⟨fun k => .empty (.inl (fresh.slots k)), fun x => ?_, fun k reason place => ?_, ?_,
    ?_, ?_, ?_, ?_⟩
  · rw [fresh.pcs]
    exact .of_plain rfl
  · rw [fresh.pcs] at place
    cases place
  all_goals simp [fresh.held, fresh.settled, fresh.accepted]

end Runs

section Quarantine

variable {s s' : BatchManager κ τ}

/-- Quarantined slots stay quarantined, with their batch. -/
def KeepsQuarantined (s s' : BatchManager κ τ) : Prop :=
  ∀ k, (s.slots k).state = .rateQuarantined →
    (s'.slots k).state = .rateQuarantined ∧ (s'.slots k).batch = (s.slots k).batch

theorem KeepsQuarantined.same (slots : s'.slots = s.slots) : KeepsQuarantined s s' := by
  intro k state
  rw [slots]
  exact ⟨state, rfl⟩

variable [DecidableEq κ]

theorem KeepsQuarantined.update {j : κ} {slot : BatchSlot}
    (slots : s'.slots = Function.update s.slots j slot)
    (other : (s.slots j).state ≠ .rateQuarantined ∨
      slot.state = (s.slots j).state ∧ slot.batch = (s.slots j).batch) :
    KeepsQuarantined s s' := by
  intro k state
  by_cases same : k = j
  · subst same
    rw [update_at slots]
    rcases other with free | ⟨state', batch⟩
    · exact absurd state free
    · exact ⟨state'.trans state, batch⟩
  · rw [update_off slots same]
    exact ⟨state, rfl⟩

variable [DecidableEq τ] {allSlots : List κ} {action : BatchAction κ τ}

theorem keepsQuarantined_act (exclusive : Exclusive s)
    (saw : ∀ state, (s.pcs .service).sees = some state → state.pending = true)
    (stepped : s.act allSlots action = some s') : KeepsQuarantined s s' := by
  have mine {x : BatchParty τ} {pc : BatchPc κ} {k : κ} {state : BatchState}
      (place : s.pcs x = pc) (owns : pc.owns = some (k, state)) (other : state ≠ .rateQuarantined) :
      (s.slots k).state ≠ .rateQuarantined := by
    rcases exclusive.state_at place owns with same | ⟨same, -⟩ <;> rw [same]
    · exact other
    · nofun
  cases act_cases stepped with
  | swap place swaps found =>
    refine .update rfl (.inl ?_)
    rw [found]
    cases swaps with
    | claim | timeout =>
      intro same
      have pending := saw _ (congrArg BatchPc.sees place)
      rw [same] at pending
      cases pending
    | _ => nofun
  | unreserve place | fill _ place | queue place | giveBack place
  | settle place | retire place | free place | quarantine place =>
    exact .update rfl (.inl (mine place rfl nofun))
  | take place found | hand place found => exact .update rfl (.inl (by simp [found]))
  | @write k reason =>
    refine .update rfl (.inr ?_)
    cases reason <;> exact ⟨rfl, rfl⟩
  | _ => exact .same rfl

/-- Only a party that publishes the signals of a slot it owns moves a timeline. -/
theorem BatchManager.act_completed (stepped : s.act allSlots action = some s') :
    s'.completed = s.completed ∨
      ∃ x k status point rest, s.pcs x = .publishing k status (point :: rest) := by
  cases act_cases stepped with
  | signal place => exact .inr ⟨_, _, _, _, _, place⟩
  | _ => exact .inl rfl

end Quarantine

section Results

variable [DecidableEq κ] [DecidableEq τ]

/-- The ticket of a wait or a release. -/
def BatchPc.ticket : BatchPc κ → Option (BatchTicket κ)
  | .waiting ticket | .waitLoaded ticket _ | .waitClaiming ticket | .releaseLoaded ticket _
  | .releasing ticket | .releaseFreeing ticket => some ticket
  | _ => none

/-- The next step of a wait or a release whose slot holds another batch changes nothing. -/
theorem Terminals.stale {reported : ℕ → Prop} {s s' : BatchManager κ τ}
    (h : Terminals reported s) {t : τ} {ticket : BatchTicket κ}
    (calls : (s.pcs (.caller t)).ticket = some ticket)
    (stale : (s.slots ticket.slot).batch.batchId ≠ ticket.batchId)
    (stepped : s.stepWait t = some s' ∨ s.stepRelease t = some s') :
    s'.slots = s.slots ∧ s'.outstanding = s.outstanding := by
  have rests := h.parties (.caller t)
  rcases stepped with stepped | stepped
  · have step : BatchStep [] s (.waitStep t) s' := .of_wait stepped
    cases step with
    | move => exact ⟨rfl, rfl⟩
    | swap _ swaps => cases swaps
    | take place =>
      rw [place] at calls rests
      cases calls
      exact absurd ((rests.watches _ _ rfl).2 _ rfl) stale
  · have step : BatchStep [] s (.releaseStep t) s' := .of_release stepped
    cases step with
    | move | check => exact ⟨rfl, rfl⟩
    | swap _ swaps => cases swaps
    | uncount place | giveBack place =>
      rw [place] at calls rests
      cases calls
      exact absurd (rests.returns _ _ rfl).2 stale

end Results

section Runs

deriving instance Fintype for BatchParty

instance decidableSeeks {P : κ → Prop} [DecidablePred P] (place : BatchPc κ) :
    Decidable (match place with | .searching (k :: _) => P k | _ => True) := by
  split <;> infer_instance

instance decidableRested [DecidableEq κ] [Fintype τ] (s : BatchManager κ τ) :
    (action : BatchAction κ τ) → Decidable (s.Rested action)
  | .submit t _ => decidableSeeks (s.pcs (.caller t))
  | .wait _ _ | .waitStep _ | .release _ _ | .lane _ _ | .look _ _ | .service | .finish _ _ =>
    isTrue trivial
  | .releaseStep t => inferInstanceAs (Decidable (∀ ticket ∈ s.releaseTakes t, ticket ∈ s.held))

/-- A release that signals timeline 0, and the next one. -/
def firstRelease : BatchRequest := ⟨3, [], [⟨0, 5⟩], some 7, false⟩

def secondRelease : BatchRequest := ⟨3, [], [⟨0, 9⟩], some 8, false⟩

/-- A caller waits for its ticket and releases it. -/
def redeem (ticket : BatchTicket (Fin 2)) : List (BatchAction (Fin 2) Bool) :=
  .wait false ticket :: List.replicate 3 (.waitStep false) ++
    .release false ticket :: List.replicate 3 (.releaseStep false)

/-- A release is completed and redeemed, and its slot is used for the next, which is redeemed with
the old ticket to no effect and then times out. -/
def redeemedRun : List (BatchAction (Fin 2) Bool) :=
  submitRun false 0 firstRelease ++ laneRun 10 ++
    [.look 0 (.completion 1 .ok), .service, .service] ++ List.replicate 4 (.finish .service false) ++
    redeem ⟨0, 1, 7⟩ ++ submitRun false 0 secondRelease ++ laneRun 10 ++
    [.release true ⟨0, 1, 7⟩, .releaseStep true] ++
    [.look 0 .timeout, .service, .service, .service, .service, .finish .service false]

/-- The service has seen batch 1 being submitted when the vendor refuses it.  The batch is finished
and redeemed, and while batch 2 is being submitted from its slot the service goes on. -/
def staleCompletion : List (BatchAction (Fin 2) Bool) :=
  submitRun false 0 firstRelease ++ laneRun 8 ++
    [.look 0 (.completion 1 .ok), .service, .lane false .deviceError, .lane false .ok] ++
    List.replicate 3 (.finish .lane false) ++ redeem ⟨0, 1, 7⟩ ++
    submitRun false 0 secondRelease ++ laneRun 8 ++ [.service, .service] ++ laneRun 3 ++
    [.look 0 .ready, .service, .service] ++ List.replicate 4 (.finish .service false)

end Runs

end RtRuntime
