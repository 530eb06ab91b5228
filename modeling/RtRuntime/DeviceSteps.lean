import RtRuntime.DeviceBatches

/-!
# What one step can do

A step of a party only moves that party, or swaps the state word of one slot, or is one of a few
that write more.  The relation lists them with their guards, so that what is proved about runs goes
through its cases and never through the code of the steps.
-/

namespace RtRuntime

open BatchManager

variable {κ τ : Type*}

/-- The party that takes a step. -/
def BatchAction.party : BatchAction κ τ → BatchParty τ
  | .submit t _ | .wait t _ | .waitStep t | .release t _ | .releaseStep t => .caller t
  | .lane _ _ => .lane
  | .look _ _ | .service => .service
  | .finish x _ => x

section Kinds

/-- Points between which a party moves without a change to anything else. -/
inductive BatchMove (allSlots : List κ) (s : BatchManager κ τ) :
    BatchAction κ τ → BatchPc κ → BatchPc κ → Prop
  | pass {t input k rest} :
      BatchMove allSlots s (.submit t input) (.searching (k :: rest)) (.searching rest)
  | refused {t input} : BatchMove allSlots s (.submit t input) (.searching []) .unlocking
  | wait {t ticket} : BatchMove allSlots s (.wait t ticket) .idle (.waiting ticket)
  | load {t ticket} : BatchMove allSlots s (.waitStep t) (.waiting ticket)
      (.waitLoaded ticket (s.slots ticket.slot).state)
  | waited {t ticket state} : BatchMove allSlots s (.waitStep t) (.waitLoaded ticket state) .idle
  | terminal {t ticket} (same : (s.slots ticket.slot).matches ticket = true) :
      BatchMove allSlots s (.waitStep t) (.waitLoaded ticket .rateTerminal) (.waitClaiming ticket)
  | waitAgain {t ticket pc} (here : pc = .waitClaiming ticket ∨ ∃ state, pc = .waitLoaded ticket state) :
      BatchMove allSlots s (.waitStep t) pc (.waiting ticket)
  | release {t ticket} : BatchMove allSlots s (.release t ticket) .idle
      (.releaseLoaded ticket (s.slots ticket.slot).state)
  | unreleased {t ticket state} :
      BatchMove allSlots s (.releaseStep t) (.releaseLoaded ticket state) .idle
  | scan {late vendor} : BatchMove allSlots s (.lane late vendor) .idle (.scanning allSlots none)
  | sight {late vendor k rest candidate} (queued : (s.slots k).state = .queued) :
      BatchMove allSlots s (.lane late vendor)
        (.scanning (k :: rest) candidate) (.sighted k rest candidate)
  | skip {late vendor k rest candidate} (other : (s.slots k).state ≠ .queued) :
      BatchMove allSlots s (.lane late vendor)
        (.scanning (k :: rest) candidate) (.scanning rest candidate)
  | prefer {late vendor k rest candidate}
      (less : ∀ c ∈ candidate, (s.slots k).batch.sequence < c.2) :
      BatchMove allSlots s (.lane late vendor) (.sighted k rest candidate) (.preferred k rest)
  | dismiss {late vendor k rest candidate}
      (more : ¬∀ c ∈ candidate, (s.slots k).batch.sequence < c.2) :
      BatchMove allSlots s (.lane late vendor) (.sighted k rest candidate)
        (.scanning rest candidate)
  | note {late vendor k rest} : BatchMove allSlots s (.lane late vendor) (.preferred k rest)
      (.scanning rest (some (k, (s.slots k).batch.sequence)))
  | nothing {late vendor} : BatchMove allSlots s (.lane late vendor) (.scanning [] none) .idle
  | choose {late vendor k number} :
      BatchMove allSlots s (.lane late vendor) (.scanning [] (some (k, number))) (.checking k 0)
  | checked {late vendor k index} (done : (s.slots k).batch.request.waits[index]? = none) :
      BatchMove allSlots s (.lane late vendor) (.checking k index) (.claiming k)
  | compare {late vendor k index point}
      (found : (s.slots k).batch.request.waits[index]? = some point) :
      BatchMove allSlots s (.lane late vendor) (.checking k index) (.comparing k index point)
  | reached {late vendor k index point} (reached : s.reached point = true) :
      BatchMove allSlots s (.lane late vendor) (.comparing k index point) (.checking k (index + 1))
  | unreached {late vendor k index point} :
      BatchMove allSlots s (.lane late vendor) (.comparing k index point) (.notReady k)
  | taken {late vendor k} : BatchMove allSlots s (.lane late vendor) (.claiming k) .idle
  | early {late vendor k} : BatchMove allSlots s (.lane late vendor) (.notReady k) .idle
  | accepted {late k} : BatchMove allSlots s (.lane late .ok) (.calling k) (.accepted k)
  | rejected {late vendor k} (error : vendor ≠ .ok) :
      BatchMove allSlots s (.lane late vendor) (.calling k) (.rejected k vendor)
  | rejectedLost {late vendor k status pc} (next : pc = .idle ∨ pc = .rejectedEarly k) :
      BatchMove allSlots s (.lane late vendor) (.rejected k status) pc
  | acceptedLost {late vendor k pc} (next : pc = .idle ∨ pc = .acceptedEarly k) :
      BatchMove allSlots s (.lane late vendor) (.accepted k) pc
  | earlyLost {late vendor k pc} (here : pc = .rejectedEarly k ∨ pc = .acceptedEarly k) :
      BatchMove allSlots s (.lane late vendor) pc .idle
  | look {k reason} (error : reason ≠ .failure .ok) :
      BatchMove allSlots s (.look k reason) .idle (.loaded k (s.slots k).state reason)
  | concerned {k state reason} (found : BatchManager.concerns (s.slots k) state reason = true) :
      BatchMove allSlots s .service (.loaded k state reason) (.saw k state reason)
  | unconcerned {k state reason} : BatchMove allSlots s .service (.loaded k state reason) .idle
  | changed {k state pc} (here : (∃ reason, pc = .saw k state reason) ∨ ∃ rate, pc = .aimed k state rate) :
      BatchMove allSlots s .service pc .idle
  | aim {k state} : BatchMove allSlots s .service (.saw k state .timeout)
      (.aimed k state (s.slots k).rateOwned)
  | expire {k pc}
      (next : pc = .quarantining k .deviceTimeout ∧ (s.slots k).rateOwned = true ∨
        pc = .finishing k .deviceTimeout false ∧ (s.slots k).rateOwned = false) :
      BatchMove allSlots s .service (.expired k) pc
  | retry {k reason} : BatchMove allSlots s .service (.wrote k reason)
      (BatchManager.retry k (s.slots k).state reason)
  | publish {x overdue k status publish status' signals}
      (kept : status' = status ∨
        status' = .deviceTimeout ∧ (s.slots k).batch.request.simulated = true) :
      BatchMove allSlots s (.finish x overdue) (.finishing k status publish)
        (.publishing k status' signals)
  | settle {x overdue k status} :
      BatchMove allSlots s (.finish x overdue) (.publishing k status []) (.settling k status)

/-- Compare-and-swaps of the state word of a slot, and the points before and after one that wins. -/
inductive BatchSwap (s : BatchManager κ τ) :
    BatchAction κ τ → BatchPc κ → κ → BatchState → BatchState → BatchPc κ → Prop
  | reserve {t input k rest} :
      BatchSwap s (.submit t input) (.searching (k :: rest)) k .free .reserved (.reserved k)
  | late {vendor k} : BatchSwap s (.lane true vendor) (.notReady k) k .queued .owned
      (.finishing k .deviceTimeout false)
  | rejected {late vendor k status} : BatchSwap s (.lane late vendor) (.rejected k status) k
      .submitting .owned (.finishing k status false)
  | rejectedEarly {late vendor k} : BatchSwap s (.lane late vendor) (.rejectedEarly k) k
      .earlyReady .owned (.finishing k .deviceError false)
  | accepted {late vendor k} :
      BatchSwap s (.lane late vendor) (.accepted k) k .submitting .submitted .idle
  | acceptedEarly {late vendor k} :
      BatchSwap s (.lane late vendor) (.acceptedEarly k) k .earlyReady .completionReady .idle
  | claim {k state reason} (other : reason ≠ .timeout) :
      BatchSwap s .service (.saw k state reason) k state .owned
        (BatchManager.claimed (s.slots k) k state reason)
  | timeout {k state rate} : BatchSwap s .service (.aimed k state rate) k state
      (BatchManager.timeoutTarget rate) (BatchManager.timedOut k state)
  | offer {k reason} : BatchSwap s .service (.wrote k reason) k .submitting .earlyReady .idle

variable [DecidableEq κ] [DecidableEq τ]

inductive BatchStep (allSlots : List κ) (s : BatchManager κ τ) :
    BatchAction κ τ → BatchManager κ τ → Prop
  | move {action old pc} (place : s.pcs action.party = old)
      (moves : BatchMove allSlots s action old pc) :
      BatchStep allSlots s action (s.setPc action.party pc)
  | swap {action old k expected target pc} (place : s.pcs action.party = old)
      (swaps : BatchSwap s action old k expected target pc)
      (found : (s.slots k).state = expected) :
      BatchStep allSlots s action ((s.setState k target).setPc action.party pc)
  | lock {t input} (place : s.pcs (.caller t) = .idle) (unlocked : s.admission = false) :
      BatchStep allSlots s (.submit t input)
        { s.setPc (.caller t) (.searching allSlots) with admission := true }
  | unreserve {t input k} (place : s.pcs (.caller t) = .reserved k) :
      BatchStep allSlots s (.submit t input) ((s.setState k .free).setPc (.caller t) .unlocking)
  | fill {t input k} (request : BatchRequest) (place : s.pcs (.caller t) = .reserved k)
      (admitted : s.admits request = true) :
      BatchStep allSlots s (.submit t input)
        ((s.fill k request input.skipped).setPc (.caller t) (.filled k))
  | count {t input k} (place : s.pcs (.caller t) = .filled k) :
      BatchStep allSlots s (.submit t input)
        { s.setPc (.caller t) (.counted k) with outstanding := s.outstanding + 1 }
  | queue {t input k} (place : s.pcs (.caller t) = .counted k) :
      BatchStep allSlots s (.submit t input)
        { (s.setState k .queued).setPc (.caller t) .unlocking with
          accepted := s.accepted ++ [(s.slots k).batch] }
  | unlock {t input} (place : s.pcs (.caller t) = .unlocking) :
      BatchStep allSlots s (.submit t input) { s.setPc (.caller t) .idle with admission := false }
  | take {t ticket} (place : s.pcs (.caller t) = .waitClaiming ticket)
      (terminal : (s.slots ticket.slot).state = .rateTerminal) :
      BatchStep allSlots s (.waitStep t)
        { (s.setState ticket.slot .owned).setPc (.caller t) .idle with held := s.held ++ [ticket] }
  | check {t ticket} (place : s.pcs (.caller t) = .releaseLoaded ticket .owned)
      (same : (s.slots ticket.slot).matches ticket = true) :
      BatchStep allSlots s (.releaseStep t)
        { s.setPc (.caller t) (.releasing ticket) with held := s.held.erase ticket }
  | uncount {t ticket} (place : s.pcs (.caller t) = .releasing ticket) :
      BatchStep allSlots s (.releaseStep t)
        { s.setPc (.caller t) (.releaseFreeing ticket) with outstanding := s.outstanding - 1 }
  | giveBack {t ticket} (place : s.pcs (.caller t) = .releaseFreeing ticket) :
      BatchStep allSlots s (.releaseStep t)
        { (s.setSlot ticket.slot { s.slots ticket.slot with
            rateOwned := false, earlyValid := false, state := .free }).setPc (.caller t) .idle with
          freed := s.freed ++ [(s.slots ticket.slot).batch.batchId] }
  | hand {late vendor k} (place : s.pcs .lane = .claiming k)
      (queued : (s.slots k).state = .queued) :
      BatchStep allSlots s (.lane late vendor)
        { (s.setState k .submitting).setPc .lane (.calling k) with
          handed := s.handed ++ [(s.slots k).batch] }
  | write {k reason} (place : s.pcs .service = .saw k .submitting reason)
      (offers : reason.offers = true) :
      BatchStep allSlots s .service
        ((s.setSlot k (BatchManager.writeEarly (s.slots k) reason)).setPc .service (.wrote k reason))
  | signal {x overdue k status point rest}
      (place : s.pcs x = .publishing k status (point :: rest)) :
      BatchStep allSlots s (.finish x overdue)
        { s.setPc x (.publishing k status rest) with completed := s.signal point }
  | settle {x overdue k status} (place : s.pcs x = .settling k status)
      (rate : (s.slots k).rateOwned = true) :
      BatchStep allSlots s (.finish x overdue)
        { (s.setSlot k { s.slots k with
            graphReleased := true, terminalStatus := status, state := .rateTerminal }).setPc x .idle
          with settled := s.settled ++ [((s.slots k).batch.batchId, .finish, status)] }
  | retire {x overdue k status} (place : s.pcs x = .settling k status)
      (ordinary : (s.slots k).rateOwned = false) :
      BatchStep allSlots s (.finish x overdue)
        ((s.setSlot k { s.slots k with graphReleased := true }).setPc x (.retiring k
          (s.slots k).batch.request.phaseIndex status (!(s.slots k).graphReleased)))
  | drop {x overdue k phaseIndex status release}
      (place : s.pcs x = .retiring k phaseIndex status release) :
      BatchStep allSlots s (.finish x overdue)
        { s.setPc x (.freeing k phaseIndex status release) with outstanding := s.outstanding - 1 }
  | free {x overdue k phaseIndex status release}
      (place : s.pcs x = .freeing k phaseIndex status release) :
      BatchStep allSlots s (.finish x overdue)
        { (s.setState k .free).setPc x
            (.completing (s.slots k).batch.batchId phaseIndex status release) with
          freed := s.freed ++ [(s.slots k).batch.batchId] }
  | complete {x overdue batchId phaseIndex status release}
      (place : s.pcs x = .completing batchId phaseIndex status release) :
      BatchStep allSlots s (.finish x overdue)
        { s.setPc x .idle with
          completions := if release then s.completions ++ [(batchId, phaseIndex)]
            else s.completions }
  | quarantine {x overdue k status} (place : s.pcs x = .quarantining k status) :
      BatchStep allSlots s (.finish x overdue)
        { (s.setSlot k { s.slots k with
            graphReleased := true
            terminalStatus := status
            earlyValid := false
            state := .rateQuarantined }).setPc x .idle with
          settled := s.settled ++ [((s.slots k).batch.batchId, .quarantine, status)] }

end Kinds

section Inversion

variable [DecidableEq κ] [DecidableEq τ] {allSlots : List κ} {s s' : BatchManager κ τ}

/-- A compare-and-swap wins or loses. -/
theorem BatchStep.cas {action : BatchAction κ τ} {old success failure : BatchPc κ} {k : κ}
    {expected target : BatchState} (place : s.pcs action.party = old)
    (wins : BatchSwap s action old k expected target success)
    (loses : BatchMove allSlots s action old failure) :
    BatchStep allSlots s action (s.cas k expected target action.party success failure) := by
  unfold BatchManager.cas
  split
  next found => exact .swap place wins found
  next => exact .move place loses

theorem BatchStep.of_submit {t : τ} {input : SubmitInput}
    (stepped : s.stepSubmit allSlots t input = some s') :
    BatchStep allSlots s (.submit t input) s' := by
  unfold stepSubmit at stepped
  split at stepped
  next place =>
    split at stepped <;> cases stepped
    next unlocked => exact .lock place (Bool.not_eq_true _ ▸ unlocked)
  next k rest place =>
    cases stepped
    exact .cas place .reserve .pass
  next place =>
    cases stepped
    exact .move place .refused
  next k place =>
    split at stepped <;> cases stepped
    next => exact .unreserve place
    next found => exact .fill _ place (Option.filter_eq_some_iff.mp found).2
  next k place =>
    cases stepped
    exact .count place
  next k place =>
    cases stepped
    exact .queue place
  next place =>
    cases stepped
    exact .unlock place
  next => cases stepped

theorem BatchStep.of_wait {t : τ} (stepped : s.stepWait t = some s') :
    BatchStep allSlots s (.waitStep t) s' := by
  unfold stepWait at stepped
  split at stepped
  next ticket place =>
    cases stepped
    exact .move place .load
  next ticket state place =>
    split at stepped
    next =>
      cases stepped
      exact .move place .waited
    next good =>
      simp only [not_or, Bool.not_eq_false] at good
      split at stepped <;> cases stepped
      next terminal => exact .move (terminal ▸ place) (.terminal good.1)
      next => exact .move place (.waitAgain (.inr ⟨state, rfl⟩))
  next ticket place =>
    split at stepped <;> cases stepped
    next terminal => exact .take place terminal
    next => exact .move place (.waitAgain (.inl rfl))
  next => cases stepped

theorem BatchStep.of_release {t : τ} (stepped : s.stepRelease t = some s') :
    BatchStep allSlots s (.releaseStep t) s' := by
  unfold stepRelease at stepped
  split at stepped
  next ticket state place =>
    split at stepped <;> cases stepped
    next found => exact .check (found.1 ▸ place) found.2
    next => exact .move place .unreleased
  next ticket place =>
    cases stepped
    exact .uncount place
  next ticket place =>
    cases stepped
    exact .giveBack place
  next => cases stepped

theorem BatchStep.of_lane {late : Bool} {vendor : Status}
    (stepped : s.stepLane allSlots late vendor = some s') :
    BatchStep allSlots s (.lane late vendor) s' := by
  unfold stepLane at stepped
  split at stepped
  next place =>
    cases stepped
    exact .move place .scan
  next k rest candidate place =>
    cases stepped
    split
    next queued => exact .move place (.sight queued)
    next other => exact .move place (.skip other)
  next k rest candidate place =>
    cases stepped
    split
    next less => exact .move place (.prefer less)
    next more => exact .move place (.dismiss more)
  next k rest place =>
    cases stepped
    exact .move place .note
  next place =>
    cases stepped
    exact .move place .nothing
  next k number place =>
    cases stepped
    exact .move place .choose
  next k index place =>
    split at stepped <;> cases stepped
    next done => exact .move place (.checked done)
    next point found => exact .move place (.compare found)
  next k index point place =>
    cases stepped
    split
    next reached => exact .move place (.reached reached)
    next => exact .move place .unreached
  next k place =>
    split at stepped <;> cases stepped
    next passed =>
      subst passed
      exact .cas place .late .early
    next => exact .move place .early
  next k place =>
    split at stepped <;> cases stepped
    next queued => exact .hand place queued
    next => exact .move place .taken
  next k place =>
    cases stepped
    split
    next ok =>
      subst ok
      exact .move place .accepted
    next error => exact .move place (.rejected error)
  next k status place =>
    cases stepped
    exact .cas place .rejected (.rejectedLost (by split <;> simp))
  next k place =>
    cases stepped
    exact .cas place .rejectedEarly (.earlyLost (.inl rfl))
  next k place =>
    cases stepped
    exact .cas place .accepted (.acceptedLost (by split <;> simp))
  next k place =>
    cases stepped
    exact .cas place .acceptedEarly (.earlyLost (.inr rfl))
  next => cases stepped

theorem BatchStep.of_service (stepped : s.stepService = some s') :
    BatchStep allSlots s .service s' := by
  unfold stepService at stepped
  split at stepped
  next k state reason place =>
    cases stepped
    split
    next found => exact .move place (.concerned found)
    next => exact .move place .unconcerned
  next k state place =>
    cases stepped
    exact .move place .aim
  next k state reason other place =>
    split at stepped <;> cases stepped
    next offered => exact .write (offered.1 ▸ place) offered.2
    next => exact .cas place (.claim other) (.changed (.inl ⟨reason, rfl⟩))
  next k state rate place =>
    cases stepped
    exact .cas place .timeout (.changed (.inr ⟨rate, rfl⟩))
  next k place =>
    cases stepped
    refine .move place (.expire ?_)
    split
    next rate => exact .inl ⟨rfl, rate⟩
    next ordinary => exact .inr ⟨rfl, Bool.not_eq_true _ ▸ ordinary⟩
  next k reason place =>
    cases stepped
    exact .cas place .offer .retry
  next => cases stepped

theorem BatchStep.of_finish {x : BatchParty τ} {overdue : Bool}
    (stepped : s.stepFinish x overdue = some s') :
    BatchStep allSlots s (.finish x overdue) s' := by
  unfold stepFinish at stepped
  split at stepped
  next k status publish place =>
    cases stepped
    refine .move place (.publish ?_)
    split
    next late => exact .inr ⟨rfl, late.1⟩
    next => exact .inl rfl
  next k status point rest place =>
    cases stepped
    exact .signal place
  next k status place =>
    cases stepped
    exact .move place .settle
  next k status place =>
    simp only at stepped
    split at stepped <;> cases stepped
    next rate => exact .settle place rate
    next ordinary => exact .retire place (Bool.not_eq_true _ ▸ ordinary)
  next k phaseIndex status release place =>
    cases stepped
    exact .drop place
  next k phaseIndex status release place =>
    cases stepped
    exact .free place
  next batchId phaseIndex status release place =>
    cases stepped
    exact .complete place
  next k status place =>
    cases stepped
    exact .quarantine place
  next => cases stepped

theorem BatchManager.act_cases {action : BatchAction κ τ}
    (stepped : s.act allSlots action = some s') : BatchStep allSlots s action s' := by
  cases action with
  | submit t input => exact .of_submit stepped
  | wait t ticket =>
    simp only [act] at stepped
    split at stepped <;> cases stepped
    next place => exact .move place .wait
  | waitStep t => exact .of_wait stepped
  | release t ticket =>
    simp only [act] at stepped
    split at stepped <;> cases stepped
    next place => exact .move place .release
  | releaseStep t => exact .of_release stepped
  | lane late vendor => exact .of_lane stepped
  | look k reason =>
    simp only [act] at stepped
    split at stepped
    next place =>
      split at stepped <;> cases stepped
      next error => exact .move place (.look error)
    next => cases stepped
  | service => exact .of_service stepped
  | finish x overdue => exact .of_finish stepped

end Inversion

end RtRuntime

