import RtRuntime.DeviceSteps

/-!
# Who owns a batch slot

A slot that is reserved, owned or being quarantined belongs to one party, which stores its next
state without looking; every other change of a state word is a compare-and-swap from a state that
nobody owns.  This is what makes the slots work, and it rests on one rule for the callers: a release
passes its checks only with a ticket that `wait_rate_batch` has handed the slot for, and once.

The two states of ownership are not told apart by where the owner is: the service reads once who owns
a batch to choose the state, and once more after the swap to choose what to do, and the slot may have
been reused in between.
-/

namespace RtRuntime

open Function BatchManager

variable {κ τ : Type*}

section Ownership

/-- The states in which a slot belongs to a party. -/
def BatchState.Claimed (state : BatchState) : Prop :=
  state = .reserved ∨ state = .owned ∨ state = .rateQuarantineOwned

/-- A slot in the first state may be finished as one in the second. -/
def BatchState.Serves (actual expected : BatchState) : Prop :=
  actual = expected ∨ actual = .rateQuarantineOwned ∧ expected = .owned

/-- The slot that a party owns at some point, and the state that the slot serves as then. -/
def BatchPc.owns : BatchPc κ → Option (κ × BatchState)
  | .reserved k | .filled k | .counted k => some (k, .reserved)
  | .expired k | .finishing k _ _ | .publishing k _ _ | .settling k _ | .retiring k _ _ _
  | .freeing k _ _ _ | .quarantining k _ => some (k, .owned)
  | .releasing ticket | .releaseFreeing ticket => some (ticket.slot, .owned)
  | _ => none

theorem BatchState.Serves.claimed {actual expected : BatchState} (serves : actual.Serves expected)
    (claimed : expected.Claimed) : actual.Claimed := by
  rcases serves with rfl | ⟨rfl, -⟩
  · exact claimed
  · exact .inr (.inr rfl)

theorem BatchState.Serves.reserved {actual : BatchState} (serves : actual.Serves .reserved) :
    actual = .reserved :=
  serves.resolve_right (by simp)

theorem BatchPc.owns_claimed {pc : BatchPc κ} {k : κ} {state : BatchState}
    (h : pc.owns = some (k, state)) : state.Claimed := by
  cases pc <;> simp only [BatchPc.owns, Option.some.injEq, Prod.mk.injEq, reduceCtorEq] at h <;>
    simp [BatchState.Claimed, ← h.2]

/-- Ownership of slots is exclusive. -/
structure Exclusive (s : BatchManager κ τ) : Prop where
  state : ∀ x k state, (s.pcs x).owns = some (k, state) → (s.slots k).state.Serves state
  unique : ∀ x y k state state', (s.pcs x).owns = some (k, state) →
    (s.pcs y).owns = some (k, state') → x = y
  held : ∀ ticket ∈ s.held, (s.slots ticket.slot).state = .owned ∧
    ∀ x state, (s.pcs x).owns ≠ some (ticket.slot, state)
  once : (s.held.map BatchTicket.slot).Nodup

/-- The ticket with which a release is about to pass its checks. -/
def BatchManager.releaseTakes (s : BatchManager κ τ) (t : τ) : Option (BatchTicket κ) :=
  match s.pcs (.caller t) with
  | .releaseLoaded ticket state =>
    if state = .owned ∧ (s.slots ticket.slot).matches ticket = true then some ticket else none
  | _ => none

/-- The rule for the callers of `release_rate_batch`. -/
def BatchManager.Disciplined (s : BatchManager κ τ) : BatchAction κ τ → Prop
  | .releaseStep t => ∀ ticket ∈ s.releaseTakes t, ticket ∈ s.held
  | _ => True

variable {s : BatchManager κ τ}

theorem Exclusive.state_at (h : Exclusive s) {x : BatchParty τ} {pc : BatchPc κ} {k : κ}
    {state : BatchState} (place : s.pcs x = pc) (owns : pc.owns = some (k, state)) :
    (s.slots k).state.Serves state :=
  h.state x k state (by rw [place, owns])

/-- What a party owns is in a state that says so. -/
theorem Exclusive.claimed_at (h : Exclusive s) {x : BatchParty τ} {pc : BatchPc κ} {k : κ}
    {state : BatchState} (place : s.pcs x = pc) (owns : pc.owns = some (k, state)) :
    (s.slots k).state.Claimed :=
  (h.state_at place owns).claimed (BatchPc.owns_claimed owns)

theorem Exclusive.free (h : Exclusive s) {k : κ}
    (unclaimed : ¬(s.slots k).state.Claimed) (x : BatchParty τ) (state : BatchState) :
    (s.pcs x).owns ≠ some (k, state) :=
  fun owned => unclaimed (h.claimed_at rfl owned)

theorem Exclusive.not_held (h : Exclusive s) {k : κ} (unclaimed : ¬(s.slots k).state.Claimed)
    (ticket : BatchTicket κ) (held : ticket ∈ s.held) : ticket.slot ≠ k := by
  rintro rfl
  exact unclaimed (.inr (.inl (h.held ticket held).1))

variable [DecidableEq τ]

/-- A party moves on and every slot keeps its state. -/
theorem Exclusive.walk {s' : BatchManager κ τ} (h : Exclusive s) (x : BatchParty τ) (pc : BatchPc κ)
    (pcs : s'.pcs = update s.pcs x pc)
    (states : ∀ k, (s'.slots k).state = (s.slots k).state) (held : s'.held = s.held)
    (owns : pc.owns = none ∨ pc.owns = (s.pcs x).owns) : Exclusive s' := by
  have before (y : BatchParty τ) (k : κ) (state : BatchState)
      (owned : (s'.pcs y).owns = some (k, state)) : (s.pcs y).owns = some (k, state) := by
    rcases role_cases pcs owned with ⟨rfl, new⟩ | ⟨-, old⟩
    · rcases owns with none | kept
      · rw [none] at new
        cases new
      · rw [← kept]
        exact new
    · exact old
  refine ⟨fun y k state owned => ?_, fun y z k state state' first second => ?_,
    fun ticket member => ?_, ?_⟩
  · rw [states k]
    exact h.state y k state (before y k state owned)
  · exact h.unique y z k state state' (before y k state first) (before z k state' second)
  · rw [held] at member
    obtain ⟨owned, nobody⟩ := h.held ticket member
    refine ⟨(states _).trans owned, fun y state other => ?_⟩
    exact nobody y state (before y _ state other)
  · rw [held]
    exact h.once

/-- A party changes a slot that is its own or nobody's, and owns it afterwards or owns nothing. -/
theorem Exclusive.change [DecidableEq κ] {s' : BatchManager κ τ} (h : Exclusive s)
    (x : BatchParty τ) (pc : BatchPc κ) (k : κ) (slot : BatchSlot)
    (pcs : s'.pcs = update s.pcs x pc) (slots : s'.slots = update s.slots k slot)
    (held : s'.held = s.held)
    (mine : (∃ state, (s.pcs x).owns = some (k, state)) ∨ ¬(s.slots k).state.Claimed)
    (owns : pc.owns = none ∨ ∃ state, pc.owns = some (k, state) ∧ slot.state.Serves state) :
    Exclusive s' := by
  have others (y : BatchParty τ) (ne : y ≠ x) (state : BatchState) :
      (s.pcs y).owns ≠ some (k, state) := by
    intro owned
    rcases mine with ⟨state', own⟩ | unclaimed
    · exact ne (h.unique y x k state state' owned own)
    · exact h.free unclaimed y state owned
  have not_held (ticket : BatchTicket κ) (member : ticket ∈ s.held) : ticket.slot ≠ k := by
    rcases mine with ⟨state, own⟩ | unclaimed
    · rintro rfl
      exact (h.held ticket member).2 x state own
    · exact h.not_held unclaimed ticket member
  have cases (y : BatchParty τ) (j : κ) (state : BatchState)
      (owned : (s'.pcs y).owns = some (j, state)) :
      y = x ∧ j = k ∧ slot.state.Serves state ∨ j ≠ k ∧ (s.pcs y).owns = some (j, state) := by
    rcases role_cases pcs owned with ⟨rfl, new⟩ | ⟨ne, old⟩
    · rcases owns with none | ⟨as, some, serves⟩
      · rw [none] at new
        cases new
      · rw [some] at new
        cases new
        exact .inl ⟨rfl, rfl, serves⟩
    · refine .inr ⟨?_, old⟩
      rintro rfl
      exact others y ne state old
  refine ⟨fun y j state owned => ?_, fun y z j state state' first second => ?_,
    fun ticket member => ?_, ?_⟩
  · rcases cases y j state owned with ⟨rfl, rfl, serves⟩ | ⟨ne, old⟩
    · rw [update_at slots]
      exact serves
    · rw [update_off slots ne]
      exact h.state y j state old
  · rcases cases y j state first with ⟨rfl, rfl, -⟩ | ⟨ne, old⟩ <;>
      rcases cases z _ state' second with ⟨rfl, same, -⟩ | ⟨ne', old'⟩
    · rfl
    · exact absurd rfl ne'
    · exact absurd same ne
    · exact h.unique y z j state state' old old'
  · rw [held] at member
    obtain ⟨owned, nobody⟩ := h.held ticket member
    rw [update_off slots (not_held ticket member)]
    refine ⟨owned, fun y state other => ?_⟩
    rcases cases y _ state other with ⟨-, same, -⟩ | ⟨-, old⟩
    · exact not_held ticket member same
    · exact nobody y state old
  · rw [held]
    exact h.once

theorem Exclusive.setPc (h : Exclusive s) {x : BatchParty τ} {pc : BatchPc κ}
    (owns : pc.owns = none ∨ pc.owns = (s.pcs x).owns) :
    Exclusive (s.setPc x pc) :=
  h.walk x pc rfl (fun _ => rfl) rfl owns

end Ownership

section Steps

variable {allSlots : List κ} {s s' : BatchManager κ τ} {action : BatchAction κ τ}

/-- The state that the service is about to act on. -/
def BatchPc.sees : BatchPc κ → Option BatchState
  | .saw _ state _ | .aimed _ state _ => some state
  | _ => none

/-- The service claims slots only from states that nobody owns. -/
def SawUnclaimed (s : BatchManager κ τ) : Prop :=
  ∀ state, (s.pcs .service).sees = some state → ¬state.Claimed

theorem BatchManager.concerns_unclaimed {slot : BatchSlot} {state : BatchState}
    {reason : ServiceReason} (h : concerns slot state reason = true) :
    ¬state.Claimed := by
  rintro (rfl | rfl | rfl) <;> cases reason <;> simp [concerns] at h

theorem BatchManager.claimed_owns (slot : BatchSlot) (k : κ) (state : BatchState)
    (reason : ServiceReason) : (BatchManager.claimed slot k state reason).owns = some (k, .owned) := by
  cases reason <;> simp only [BatchManager.claimed] <;> try rfl
  split <;> rfl

theorem BatchManager.timedOut_owns (k : κ) (state : BatchState) :
    (BatchManager.timedOut k state).owns = some (k, .owned) := by
  unfold BatchManager.timedOut
  split <;> rfl

theorem BatchManager.timeoutTarget_serves (rate : Bool) : (timeoutTarget rate).Serves .owned := by
  cases rate
  · exact .inl rfl
  · exact .inr ⟨rfl, rfl⟩

theorem BatchManager.retry_owns (k : κ) (state : BatchState) (reason : ServiceReason) :
    (BatchManager.retry k state reason).owns = none := by
  cases reason <;> simp only [BatchManager.retry] <;> try rfl
  all_goals split <;> rfl

/-- Who only moves keeps its slot or owns none. -/
theorem BatchMove.owns {old pc : BatchPc κ} (moves : BatchMove allSlots s action old pc) :
    pc.owns = none ∨ pc.owns = old.owns := by
  cases moves with
  | retry => exact .inl (BatchManager.retry_owns _ _ _)
  | publish | settle => exact .inr rfl
  | expire next => rcases next with ⟨rfl, -⟩ | ⟨rfl, -⟩ <;> exact .inr rfl
  | rejectedLost next | acceptedLost next => rcases next with rfl | rfl <;> exact .inl rfl
  | _ => exact .inl rfl

section Swaps

variable {old pc : BatchPc κ} {k : κ} {expected target : BatchState}

theorem BatchSwap.unclaimed (saw : SawUnclaimed s) (place : s.pcs action.party = old)
    (swaps : BatchSwap s action old k expected target pc) : ¬expected.Claimed := by
  cases swaps with
  | claim | timeout => exact saw _ (congrArg BatchPc.sees place)
  | _ => simp [BatchState.Claimed]

theorem BatchSwap.owns (swaps : BatchSwap s action old k expected target pc) :
    pc.owns = none ∨ ∃ state, pc.owns = some (k, state) ∧ target.Serves state := by
  cases swaps with
  | claim => exact .inr ⟨_, BatchManager.claimed_owns _ _ _ _, .inl rfl⟩
  | timeout => exact .inr ⟨_, BatchManager.timedOut_owns _ _, timeoutTarget_serves _⟩
  | accepted | acceptedEarly | offer => exact .inl rfl
  | _ => exact .inr ⟨_, rfl, .inl rfl⟩

end Swaps

/-- A backend that has started: every slot is free and every party idle. -/
structure BatchManager.Fresh (s : BatchManager κ τ) : Prop where
  slots : ∀ k, (s.slots k).state = .free
  pcs : ∀ x, s.pcs x = .idle
  outstanding : s.outstanding = 0
  admission : s.admission = false
  accepted : s.accepted = []
  handed : s.handed = []
  settled : s.settled = []
  completions : s.completions = []
  freed : s.freed = []
  held : s.held = []

theorem BatchManager.Fresh.exclusive (fresh : s.Fresh) : Exclusive s where
  state := fun x k state owned => by simp [fresh.pcs x, BatchPc.owns] at owned
  unique := fun x y k state state' owned _ => by simp [fresh.pcs x, BatchPc.owns] at owned
  held := by simp [fresh.held]
  once := by simp [fresh.held]

theorem BatchManager.Fresh.sawUnclaimed (fresh : s.Fresh) : SawUnclaimed s := by
  intro state sees
  simp [fresh.pcs, BatchPc.sees] at sees

variable [DecidableEq κ] [DecidableEq τ]

theorem BatchManager.writeEarly_state (slot : BatchSlot) (reason : ServiceReason) :
    (writeEarly slot reason).state = slot.state := by
  cases reason <;> rfl

/-- A wait that finds a result takes the slot and leaves it to its ticket. -/
theorem Exclusive.take (h : Exclusive s) {t : τ} {ticket : BatchTicket κ}
    (terminal : (s.slots ticket.slot).state = .rateTerminal) :
    Exclusive { (s.setState ticket.slot .owned).setPc (.caller t) .idle with
      held := s.held ++ [ticket] } := by
  have unclaimed : ¬(s.slots ticket.slot).state.Claimed := by simp [terminal, BatchState.Claimed]
  have claimed : Exclusive ((s.setState ticket.slot .owned).setPc (.caller t) .idle) :=
    h.change (.caller t) .idle ticket.slot _ rfl rfl rfl (.inr unclaimed) (.inl rfl)
  refine ⟨claimed.state, claimed.unique, fun other member => ?_, ?_⟩
  · rcases List.mem_append.mp member with before | new
    · exact claimed.held other before
    · obtain rfl := List.mem_singleton.mp new
      refine ⟨by simp [setState, setSlot, BatchManager.setPc],
        fun y state owned => ?_⟩
      have pcs : ((s.setState other.slot .owned).setPc (.caller t) .idle).pcs =
        update s.pcs (.caller t) .idle := rfl
      exact h.free unclaimed y state (role_before pcs (by nofun) owned).2
  · simp only [List.map_append, List.map_cons, List.map_nil]
    refine List.nodup_append.mpr ⟨h.once, List.nodup_singleton _, ?_⟩
    rintro _ before _ new rfl
    obtain ⟨first, member, same⟩ := List.mem_map.mp before
    exact h.not_held unclaimed first member (same.trans (List.mem_singleton.mp new))

/-- A release that keeps the rule takes over the slot from the ticket. -/
theorem Exclusive.release (h : Exclusive s) {t : τ} {ticket : BatchTicket κ}
    (member : ticket ∈ s.held) :
    Exclusive { s.setPc (.caller t) (.releasing ticket) with held := s.held.erase ticket } := by
  obtain ⟨owned, nobody⟩ := h.held ticket member
  have pcs : (s.setPc (.caller t) (.releasing ticket)).pcs =
    update s.pcs (.caller t) (.releasing ticket) := rfl
  have own (y : BatchParty τ) (k : κ) (st : BatchState)
      (owns : ((s.setPc (.caller t) (.releasing ticket)).pcs y).owns = some (k, st)) :
      y = .caller t ∧ k = ticket.slot ∧ st = .owned ∨ (s.pcs y).owns = some (k, st) := by
    rcases role_cases pcs owns with ⟨rfl, new⟩ | ⟨-, old⟩
    · cases new
      exact .inl ⟨rfl, rfl, rfl⟩
    · exact .inr old
  refine ⟨fun y k st owns => ?_, fun y z k st st' first second => ?_, fun other still => ?_, ?_⟩
  · rcases own y k st owns with ⟨-, rfl, rfl⟩ | before
    · exact .inl owned
    · exact h.state y k st before
  · rcases own y k st first with ⟨rfl, rfl, -⟩ | before
    · rcases own z _ st' second with ⟨rfl, -⟩ | other
      · rfl
      · exact absurd other (nobody z st')
    · rcases own z k st' second with ⟨-, rfl, -⟩ | other
      · exact absurd before (nobody y st)
      · exact h.unique y z k st st' before other
  · have before := List.mem_of_mem_erase still
    obtain ⟨owned', nobody'⟩ := h.held other before
    refine ⟨owned', fun y st owns => ?_⟩
    rcases own y _ st owns with ⟨-, same, -⟩ | other'
    · -- tickets in the list have different slots, so the other one is the erased one
      obtain rfl := List.inj_on_of_nodup_map h.once before member same
      exact absurd still (h.once.of_map _).not_mem_erase
    · exact nobody' y st other'
  · exact h.once.sublist (List.erase_sublist.map _)

theorem Exclusive.act (h : Exclusive s) (saw : SawUnclaimed s) (disciplined : s.Disciplined action)
    (stepped : s.act allSlots action = some s') : Exclusive s' := by
  -- the owner of a slot stores what it likes
  have store {x : BatchParty τ} {old : BatchPc κ} {k : κ} {state : BatchState}
      (place : s.pcs x = old) (owns : old.owns = some (k, state)) :
      (∃ state, (s.pcs x).owns = some (k, state)) ∨ ¬(s.slots k).state.Claimed :=
    .inl ⟨state, by rw [place, owns]⟩
  have keep {x : BatchParty τ} {old pc : BatchPc κ} (place : s.pcs x = old)
      (same : pc.owns = old.owns) : pc.owns = none ∨ pc.owns = (s.pcs x).owns :=
    .inr (by rw [place, same])
  cases act_cases stepped with
  | move place moves => exact h.setPc (place ▸ moves.owns)
  | swap place swaps found =>
    exact h.change _ _ _ _ rfl rfl rfl (.inr (found ▸ swaps.unclaimed saw place)) swaps.owns
  | lock | unlock | complete => exact h.walk _ _ rfl (fun _ => rfl) rfl (.inl rfl)
  | unreserve place | queue place | giveBack place | free place | settle place | quarantine place =>
    exact h.change _ _ _ _ rfl rfl rfl (store place rfl) (.inl rfl)
  | fill request place | retire place =>
    exact h.change _ _ _ _ rfl rfl rfl (store place rfl) (.inr ⟨_, rfl, h.state_at place rfl⟩)
  | count place | uncount place | signal place | drop place =>
    exact h.walk _ _ rfl (fun _ => rfl) rfl (keep place rfl)
  | take place terminal => exact h.take terminal
  | check place same =>
    exact h.release (disciplined _ (by simp [releaseTakes, place, same]))
  | hand place queued =>
    exact h.change _ _ _ _ rfl rfl rfl (.inr (by simp [queued, BatchState.Claimed])) (.inl rfl)
  | write =>
    refine h.walk _ _ rfl (fun j => ?_) rfl (.inl rfl)
    simp only [BatchManager.setPc, setSlot, update_apply]
    split
    next same => rw [same, BatchManager.writeEarly_state]
    next => rfl

omit [DecidableEq κ] in
theorem BatchManager.claimed_sees (slot : BatchSlot) (k : κ) (state : BatchState)
    (reason : ServiceReason) : (BatchManager.claimed slot k state reason).sees = none := by
  cases reason <;> simp only [BatchManager.claimed] <;> try rfl
  split <;> rfl

omit [DecidableEq κ] in
theorem BatchManager.timedOut_sees (k : κ) (state : BatchState) :
    (BatchManager.timedOut k state).sees = none := by
  unfold BatchManager.timedOut
  split <;> rfl

omit [DecidableEq κ] [DecidableEq τ] in
/-- What a move leaves for the service to act on concerns it, or did so before. -/
theorem BatchMove.sees {old pc : BatchPc κ} (moves : BatchMove allSlots s action old pc)
    {state : BatchState} (sees : pc.sees = some state) :
    (∃ slot reason, concerns slot state reason = true) ∨ old.sees = some state := by
  cases moves with
  | concerned found =>
    cases sees
    exact .inl ⟨_, _, found⟩
  | aim =>
    cases sees
    exact .inr rfl
  | @retry k reason =>
    -- a look that is repeated is at a state that concerns a failure
    unfold BatchManager.retry at sees
    cases reason with
    | completion batchId status =>
      simp only at sees
      split at sees <;> cases sees
      exact .inl ⟨s.slots k, .failure status, rfl⟩
    | failure status =>
      simp only at sees
      split at sees <;> cases sees
      next which =>
        refine .inl ⟨s.slots k, .failure status, ?_⟩
        rcases which with state | state | state <;> rw [state] <;> rfl
    | timeout => cases sees
    | ready => cases sees
  | expire next => rcases next with ⟨rfl, -⟩ | ⟨rfl, -⟩ <;> cases sees
  | rejectedLost next | acceptedLost next => rcases next with rfl | rfl <;> cases sees
  | _ => cases sees

/-- What holds of the states that concern the service holds of the state that it acts on. -/
theorem saw_act {P : BatchState → Prop}
    (concerned : ∀ slot state reason, concerns slot state reason = true → P state)
    (h : ∀ state, (s.pcs .service).sees = some state → P state)
    (stepped : s.act allSlots action = some s') :
    ∀ state, (s'.pcs .service).sees = some state → P state := by
  have follows {x : BatchParty τ} {pc : BatchPc κ} (pcs : s'.pcs = update s.pcs x pc)
      (new : ∀ state, pc.sees = some state → P state ∨ (s.pcs x).sees = some state) :
      ∀ state, (s'.pcs .service).sees = some state → P state := by
    intro state sees
    rcases role_cases pcs sees with ⟨rfl, now⟩ | ⟨-, old⟩
    · exact (new state now).elim id (h state)
    · exact h state old
  cases act_cases stepped with
  | move place moves =>
    refine follows rfl fun state sees => ?_
    rcases moves.sees sees with ⟨slot, reason, found⟩ | before
    · exact .inl (concerned slot state reason found)
    · exact .inr (place ▸ before)
  | swap place swaps =>
    refine follows rfl fun state sees => ?_
    cases swaps with
    | claim =>
      rw [BatchManager.claimed_sees] at sees
      cases sees
    | timeout =>
      rw [BatchManager.timedOut_sees] at sees
      cases sees
    | _ => cases sees
  | _ => exact follows rfl nofun

theorem SawUnclaimed.act (h : SawUnclaimed s) (stepped : s.act allSlots action = some s') :
    SawUnclaimed s' :=
  saw_act (fun _ _ _ => BatchManager.concerns_unclaimed) h stepped

end Steps

end RtRuntime
