import RtRuntime.DeviceAccounts

/-!
# Terminal results of rate batches

A rate batch gets its terminal result when its slot is finished or quarantined, and from then on the
slot says so.  What a waiter or the service does next rests on a look at the slot, and the look is
not repeated by the compare-and-swap that follows: it compares the state word, which says nothing of
the batch.  So the results below hold in the runs in which no slot is reserved for another batch
while somebody acts on a look at it.  A timeout reads twice who owns the batch; in these runs both
reads agree.
-/

namespace RtRuntime

open Function List

variable {κ τ : Type*}

section Looks

/-- The batch of the slot has no terminal result. -/
def BatchState.pending : BatchState → Bool
  | .queued | .submitting | .submitted | .earlyReady | .completionReady | .rateQuarantineOwned =>
    true
  | _ => false

/-- The batch that a reason is about. -/
def ServiceReason.about : ServiceReason → Option ℕ
  | .completion batchId _ => some batchId
  | _ => none

namespace BatchPc

/-- The slot that a party has looked at and is about to act on. -/
def looksAt : BatchPc κ → Option κ
  | .waitLoaded ticket _ | .waitClaiming ticket => some ticket.slot
  | .loaded k _ _ | .saw k _ _ | .aimed k _ _ | .wrote k _ => some k
  | _ => none

/-- A look at a slot that held a batch, with the id if that has been compared. -/
def watches : BatchPc κ → Option (κ × Option ℕ)
  | .waitLoaded ticket state =>
    if state = .free ∨ state = .reserved then none else some (ticket.slot, none)
  | .waitClaiming ticket => some (ticket.slot, some ticket.batchId)
  | .loaded k state _ => if state = .free ∨ state = .reserved then none else some (k, none)
  | .saw k _ reason | .wrote k reason => some (k, reason.about)
  | .aimed k _ _ => some (k, none)
  | _ => none

def reason : BatchPc κ → Option ServiceReason
  | .loaded _ _ reason | .saw _ _ reason | .wrote _ reason => some reason
  | _ => none

/-- The slot that a party is giving a result, and the result. -/
def ends : BatchPc κ → Option (κ × Status)
  | .finishing k status _ | .publishing k status _ | .settling k status => some (k, status)
  | _ => none

/-- The slot that a release gives back, with the id that was compared. -/
def returns : BatchPc κ → Option (κ × ℕ)
  | .releasing ticket | .releaseFreeing ticket => some (ticket.slot, ticket.batchId)
  | _ => none

/-- The error that a party has for a slot. -/
def error : BatchPc κ → Option Status
  | .rejected _ status | .quarantining _ status => some status
  | _ => none

/-- The slot whose early completion has been written and not offered yet. -/
def writes : BatchPc κ → Option κ
  | .wrote k _ => some k
  | _ => none

/-- Points at which nothing rests on a slot. -/
def plain : BatchPc κ → Bool
  | .waitLoaded _ _ | .waitClaiming _ | .loaded _ _ _ | .saw _ _ _ | .aimed _ _ _ | .expired _
  | .wrote _ _ | .finishing _ _ _ | .publishing _ _ _ | .settling _ _ | .releasing _
  | .releaseFreeing _ | .rejected _ _ | .quarantining _ _ => false
  | _ => true

attribute [simp] BatchState.pending

theorem looksAt_of_watches {pc : BatchPc κ} {k : κ} {about : Option ℕ}
    (h : pc.watches = some (k, about)) : pc.looksAt = some k := by
  cases pc <;> simp only [watches, looksAt] at h ⊢ <;> (try split at h) <;> simp_all

theorem owns_of_ends {pc : BatchPc κ} {k : κ} {status : Status} (h : pc.ends = some (k, status)) :
    pc.owns = some (k, .owned) := by
  cases pc <;> simp_all [ends, owns]

theorem owns_of_returns {pc : BatchPc κ} {k : κ} {batchId : ℕ}
    (h : pc.returns = some (k, batchId)) : pc.owns = some (k, .owned) := by
  cases pc <;> simp_all [returns, owns]

end BatchPc

end Looks

section Invariant

variable (reported : ℕ → Prop)

/-- A reason that can make a batch succeed is a completion that was reported for it. -/
def ServiceReason.Sound : ServiceReason → Prop
  | .completion batchId status => status = .ok → reported batchId
  | .failure status => status ≠ .ok
  | _ => True

/-- What a slot says of the result of its batch. -/
structure SlotTells (settled : List ℕ) (slot : BatchSlot) : Prop where
  early : slot.state = .earlyReady ∨ slot.state = .completionReady → slot.earlyStatus = .ok →
    reported slot.batch.batchId
  pending : slot.state.pending = true → slot.rateOwned = true → slot.graphReleased = false
  done : slot.state = .rateTerminal ∨ slot.state = .rateQuarantined →
    slot.rateOwned = true ∧ slot.graphReleased = true
  settled : slot.state ≠ .free → slot.state ≠ .reserved → slot.rateOwned = true →
    (slot.graphReleased = true ↔ slot.batch.batchId ∈ settled)

/-- What a timeout rests on: only a simulated batch is timed out before it is sent, who owned the
batch when the service aimed still owns it, and a slot is claimed by the state that says so. -/
def TimeoutRests (slots : κ → BatchSlot) : BatchPc κ → Prop
  | .saw k state reason =>
    state = .queued → reason = .timeout → (slots k).batch.request.simulated = true
  | .aimed k state rate => (state = .queued → (slots k).batch.request.simulated = true) ∧
    ((slots k).state ≠ .free → rate = (slots k).rateOwned)
  | .expired k => (slots k).state = BatchManager.timeoutTarget (slots k).rateOwned ∧
    ((slots k).rateOwned = true → (slots k).graphReleased = false)
  | .quarantining k _ => (slots k).rateOwned = true ∧ (slots k).graphReleased = false
  | _ => True

/-- What a party's next step rests on. -/
structure PartyRests (slots : κ → BatchSlot) (pc : BatchPc κ) : Prop where
  watches : ∀ k about, pc.watches = some (k, about) →
    (slots k).state ≠ .reserved ∧ ∀ batchId ∈ about, (slots k).batch.batchId = batchId
  reason : ∀ reason, pc.reason = some reason → reason.Sound reported
  ready : ∀ k state, pc = .saw k state .ready → state = .completionReady
  error : ∀ status, pc.error = some status → status ≠ .ok
  ends : ∀ k status, pc.ends = some (k, status) →
    (status = .ok → reported (slots k).batch.batchId) ∧
      ((slots k).rateOwned = true → (slots k).graphReleased = false) ∧ (slots k).state = .owned
  returns : ∀ k batchId, pc.returns = some (k, batchId) →
    (slots k).graphReleased = true ∧ (slots k).batch.batchId = batchId
  timeout : TimeoutRests slots pc

theorem PartyRests.of_plain {reported : ℕ → Prop} {slots : κ → BatchSlot} {pc : BatchPc κ}
    (plain : pc.plain = true) : PartyRests reported slots pc := by
  constructor <;> cases pc <;> simp_all [BatchPc.plain, BatchPc.watches, BatchPc.reason,
    BatchPc.error, BatchPc.ends, BatchPc.returns, TimeoutRests]

/-- The results that were given. -/
structure ResultsGiven (s : BatchManager κ τ) : Prop where
  once : (s.settled.map Prod.fst).Nodup
  listed : ∀ batchId ∈ s.settled.map Prod.fst, ∃ b ∈ s.accepted, b.batchId = batchId ∧
    b.request.rateIdentity.isSome = true
  sound : ∀ batchId way, (batchId, way, Status.ok) ∈ s.settled → way = .finish ∧ reported batchId
  freed : ∀ b ∈ s.accepted, b.request.rateIdentity.isSome = true → b.batchId ∈ s.freed →
    b.batchId ∈ s.settled.map Prod.fst

structure Terminals (s : BatchManager κ τ) : Prop where
  slots : ∀ k, SlotTells reported (s.settled.map Prod.fst) (s.slots k)
  parties : ∀ x, PartyRests reported s.slots (s.pcs x)
  wrote : ∀ k reason, s.pcs .service = .wrote k reason → (s.slots k).earlyStatus = .ok →
    reported (s.slots k).batch.batchId
  held : ∀ ticket ∈ s.held, (s.slots ticket.slot).graphReleased = true
  given : ResultsGiven reported s

/-- A look that carries a successful completion carries one that counts as reported. -/
def BatchAction.Reports : BatchAction κ τ → Prop
  | .look _ (.completion batchId status) => status = .ok → reported batchId
  | _ => True

/-- No slot is reserved while somebody acts on a look at it, and releases keep their rule. -/
def BatchManager.Rested (s : BatchManager κ τ) : BatchAction κ τ → Prop
  | .submit t _ =>
    match s.pcs (.caller t) with
    | .searching (k :: _) => (s.slots k).state = .free → ∀ x, (s.pcs x).looksAt ≠ some k
    | _ => True
  | action => s.Disciplined action

end Invariant

section Frames

variable {reported : ℕ → Prop} {s s' : BatchManager κ τ}

theorem ResultsGiven.same (h : ResultsGiven reported s) (settled : s'.settled = s.settled)
    (accepted : s'.accepted = s.accepted) (freed : s'.freed = s.freed) :
    ResultsGiven reported s' := by
  refine ⟨settled ▸ h.once, ?_, settled ▸ h.sound, ?_⟩
  · rw [settled, accepted]
    exact h.listed
  · rw [settled, accepted, freed]
    exact h.freed

variable [DecidableEq τ]

/-- A party moves on and every slot stays as it is. -/
theorem Terminals.walk (h : Terminals reported s) (x : BatchParty τ) (pc : BatchPc κ)
    (pcs : s'.pcs = update s.pcs x pc) (slots : s'.slots = s.slots)
    (rests : PartyRests reported s.slots pc) (unwritten : pc.writes = none)
    (held : ∀ ticket ∈ s'.held, ticket ∈ s.held) (settled : s'.settled = s.settled)
    (accepted : s'.accepted = s.accepted) (freed : s'.freed = s.freed) : Terminals reported s' := by
  refine ⟨fun k => ?_, fun y => ?_, fun k reason place => ?_, fun ticket member => ?_,
    h.given.same settled accepted freed⟩
  · rw [slots, settled]
    exact h.slots k
  · rw [slots, pcs]
    by_cases same : y = x
    · subst same
      rwa [update_self]
    · rw [update_of_ne same]
      exact h.parties y
  · rw [slots]
    rw [pcs] at place
    rcases update_cases (P := (· = BatchPc.wrote k reason)) place with ⟨-, rfl⟩ | ⟨-, old⟩
    · cases unwritten
    · exact h.wrote k reason old
  · rw [slots]
    exact h.held ticket (held ticket member)

variable [DecidableEq κ]

/-- What a change of a slot leaves to the parties that rest on it. -/
structure SlotEvolves (s : BatchManager κ τ) (x : BatchParty τ) (k : κ) (slot : BatchSlot) :
    Prop where
  reserved : slot.state = .reserved → (s.slots k).state = .reserved ∨
    ∀ y, (s.pcs y).looksAt ≠ some k
  batch : (s.slots k).state ≠ .reserved → slot.batch = (s.slots k).batch
  early : x ≠ .service → (s.slots k).state ≠ .reserved →
    slot.earlyStatus = (s.slots k).earlyStatus
  mine : ((∃ state, (s.pcs x).owns = some (k, state)) ∨ ¬(s.slots k).state.Claimed) ∨
    slot.batch = (s.slots k).batch ∧ slot.rateOwned = (s.slots k).rateOwned ∧
      slot.graphReleased = (s.slots k).graphReleased ∧ slot.state = (s.slots k).state
  rate : (s.slots k).state ≠ .reserved → slot.state ≠ .free → slot.state ≠ .reserved →
    (s.slots k).state ≠ .free ∧ slot.rateOwned = (s.slots k).rateOwned

omit [DecidableEq τ] in
theorem PartyRests.other (exclusive : Exclusive s) {x y : BatchParty τ} {k : κ} {slot : BatchSlot}
    (evolves : SlotEvolves s x k slot) (ne : y ≠ x) (h : PartyRests reported s.slots (s.pcs y)) :
    PartyRests reported (update s.slots k slot) (s.pcs y) := by
  -- a slot that the party owns keeps its batch and its result
  have kept (j : κ) (owns : (s.pcs y).owns = some (j, .owned)) :
      (update s.slots k slot j).batch = (s.slots j).batch ∧
        (update s.slots k slot j).rateOwned = (s.slots j).rateOwned ∧
        (update s.slots k slot j).graphReleased = (s.slots j).graphReleased ∧
        (update s.slots k slot j).state = (s.slots j).state := by
    by_cases same : j = k
    · subst same
      rw [update_self]
      rcases evolves.mine with (⟨state, own⟩ | unclaimed) | same
      · exact absurd owns (exclusive.other own ne)
      · exact absurd owns (exclusive.free unclaimed y _)
      · exact same
    · rw [update_of_ne same]
      exact ⟨rfl, rfl, rfl, rfl⟩
  -- a slot that the party watches keeps its batch, and its owner until it is free
  have watched (j : κ) (about : Option ℕ) (watching : (s.pcs y).watches = some (j, about)) :
      (update s.slots k slot j).state ≠ .reserved ∧
        (update s.slots k slot j).batch = (s.slots j).batch ∧
        ((update s.slots k slot j).state ≠ .free → (s.slots j).state ≠ .free ∧
          (update s.slots k slot j).rateOwned = (s.slots j).rateOwned) := by
    have unreserved := (h.watches j about watching).1
    by_cases same : j = k
    · subst same
      rw [update_self]
      have kept : slot.state ≠ .reserved := by
        intro reserved
        rcases evolves.reserved reserved with before | unseen
        · exact unreserved before
        · exact unseen y (BatchPc.looksAt_of_watches watching)
      exact ⟨kept, evolves.batch unreserved, fun busy => evolves.rate unreserved busy kept⟩
    · rw [update_of_ne same]
      exact ⟨unreserved, rfl, fun busy => ⟨busy, rfl⟩⟩
  refine ⟨fun j about watching => ?_, h.reason, h.ready, h.error, fun j status ending => ?_,
    fun j about returning => ?_, ?_⟩
  · obtain ⟨unreserved, batch, -⟩ := watched j about watching
    rw [batch]
    exact ⟨unreserved, (h.watches j about watching).2⟩
  · obtain ⟨batch, rate, released, state⟩ := kept j (BatchPc.owns_of_ends ending)
    rw [batch, rate, released, state]
    exact h.ends j status ending
  · obtain ⟨batch, -, released, -⟩ := kept j (BatchPc.owns_of_returns returning)
    rw [batch, released]
    exact h.returns j about returning
  · have before := h.timeout
    revert before kept watched
    cases s.pcs y with
    | saw j state reason =>
      intro _ watched before
      rw [TimeoutRests, (watched j _ rfl).2.1]
      exact before
    | aimed j state rate =>
      intro _ watched before
      obtain ⟨-, batch, owner⟩ := watched j _ rfl
      rw [TimeoutRests, batch]
      refine ⟨before.1, fun busy => ?_⟩
      obtain ⟨held, same⟩ := owner busy
      rw [same]
      exact before.2 held
    | expired j | quarantining j status =>
      intro kept _ before
      obtain ⟨-, rate, released, state⟩ := kept j rfl
      simpa only [TimeoutRests, rate, released, state] using before
    | _ => exact fun _ _ _ => trivial

/-- A party changes a slot. -/
theorem Terminals.change (h : Terminals reported s) (exclusive : Exclusive s) (x : BatchParty τ)
    (pc : BatchPc κ) (k : κ) (slot : BatchSlot) (pcs : s'.pcs = update s.pcs x pc)
    (slots : s'.slots = update s.slots k slot) (evolves : SlotEvolves s x k slot)
    (tells : SlotTells reported (s'.settled.map Prod.fst) slot)
    (rests : PartyRests reported (update s.slots k slot) pc)
    (wrote : ∀ j, pc.writes = some j → j = k ∧ (slot.earlyStatus = .ok →
      reported slot.batch.batchId))
    (held : ∀ ticket ∈ s'.held, ticket ∈ s.held ∨
      ticket.slot = k ∧ slot.graphReleased = true)
    (others : ∀ j, j ≠ k → s.Holds j → (s.slots j).rateOwned = true →
      ((s.slots j).batch.batchId ∈ s'.settled.map Prod.fst ↔
        (s.slots j).batch.batchId ∈ s.settled.map Prod.fst))
    (given : ResultsGiven reported s') : Terminals reported s' := by
  refine ⟨fun j => ?_, fun y => ?_, fun j reason place => ?_, fun ticket member => ?_, given⟩
  · rw [slots]
    by_cases same : j = k
    · subst same
      rwa [update_self]
    · rw [update_of_ne same]
      have before := h.slots j
      refine ⟨before.early, before.pending, before.done, fun busy taken rate => ?_⟩
      rw [others j same ⟨busy, taken⟩ rate]
      exact before.settled busy taken rate
  · rw [slots, pcs]
    by_cases same : y = x
    · subst same
      rwa [update_self]
    · rw [update_of_ne same]
      exact (h.parties y).other exclusive evolves same
  · rw [slots]
    rw [pcs] at place
    rcases update_cases (P := (· = BatchPc.wrote j reason)) place with ⟨-, rfl⟩ | ⟨ne, old⟩
    · obtain ⟨rfl, fine⟩ := wrote j rfl
      rwa [update_self]
    · by_cases same : j = k
      · subst same
        have unreserved := ((h.parties .service).watches j reason.about (by rw [old]; rfl)).1
        rw [update_self, evolves.batch unreserved, evolves.early (Ne.symm ne) unreserved]
        exact h.wrote j reason old
      · rw [update_of_ne same]
        exact h.wrote j reason old
  · rw [slots]
    rcases held ticket member with before | ⟨rfl, released⟩
    · have fine := h.held ticket before
      by_cases same : ticket.slot = k
      · subst same
        rw [update_self]
        rcases evolves.mine with (⟨state, own⟩ | unclaimed) | ⟨-, -, released, -⟩
        · exact absurd own ((exclusive.held ticket before).2 x state)
        · exact absurd rfl (exclusive.not_held unclaimed ticket before)
        · rwa [released]
      · rwa [update_of_ne same]
    · rwa [update_self]

end Frames

section Moves

variable {reported : ℕ → Prop} {s s' : BatchManager κ τ}

variable {state : BatchState}

theorem BatchState.holds_of_pending (h : state.pending = true) :
    state ≠ .free ∧ state ≠ .reserved := by
  cases state <;> simp_all

variable {slot : BatchSlot}

/-- A slot without a result gets another state that gives it none. -/
theorem SlotTells.restate {ids : List ℕ} (h : SlotTells reported ids slot) {target : BatchState}
    (before : slot.state.pending = true)
    (early : target = .earlyReady ∨ target = .completionReady → slot.earlyStatus = .ok →
      reported slot.batch.batchId) (open' : target ≠ .rateTerminal ∧ target ≠ .rateQuarantined) :
    SlotTells reported ids { slot with state := target } := by
  obtain ⟨busy, taken⟩ := BatchState.holds_of_pending before
  refine ⟨early, fun _ => h.pending before, fun terminal => ?_, fun _ _ => h.settled busy taken⟩
  rcases terminal with terminal | quarantined
  · exact absurd terminal open'.1
  · exact absurd quarantined open'.2

/-- A slot without a batch tells nothing. -/
theorem SlotTells.empty {ids : List ℕ} (empty : slot.state = .free ∨ slot.state = .reserved) :
    SlotTells reported ids slot := by
  constructor <;> rcases empty with state | state <;> simp [state]

variable {k : κ}

theorem PartyRests.of_ends {slots : κ → BatchSlot} {pc : BatchPc κ} {status : Status}
    (ends : pc.ends = some (k, status)) (ok : status = .ok → reported (slots k).batch.batchId)
    (rate : (slots k).rateOwned = true → (slots k).graphReleased = false)
    (owned : (slots k).state = .owned) : PartyRests reported slots pc := by
  constructor <;> cases pc <;> simp_all [BatchPc.watches, BatchPc.reason, BatchPc.error,
    BatchPc.ends, BatchPc.returns, TimeoutRests]

theorem PartyRests.of_error {slots : κ → BatchSlot} {pc : BatchPc κ} {status : Status}
    (error : pc.error = some status) (bad : status ≠ .ok) (timeout : TimeoutRests slots pc) :
    PartyRests reported slots pc := by
  constructor <;> cases pc <;> simp_all [BatchPc.watches, BatchPc.reason, BatchPc.error,
    BatchPc.ends, BatchPc.returns]

theorem PartyRests.of_returns {slots : κ → BatchSlot} {pc : BatchPc κ} {id : ℕ}
    (returns : pc.returns = some (k, id)) (released : (slots k).graphReleased = true)
    (same : (slots k).batch.batchId = id) : PartyRests reported slots pc := by
  constructor <;> cases pc <;> simp_all [BatchPc.watches, BatchPc.reason, BatchPc.error,
    BatchPc.ends, BatchPc.returns, TimeoutRests]

theorem BatchSlot.batchId_of_matches {ticket : BatchTicket κ} (h : slot.matches ticket = true) :
    slot.batch.batchId = ticket.batchId := by
  simp only [BatchSlot.matches, Bool.and_eq_true, beq_iff_eq] at h
  exact h.1.2

/-- A slot that concerns the service has no result, and is the one that a completion names. -/
theorem BatchManager.concerns_pending {reason : ServiceReason}
    (h : BatchManager.concerns slot state reason = true) :
    state.pending = true ∧ (∀ id ∈ reason.about, slot.batch.batchId = id) ∧
      (reason = .ready → state = .completionReady) ∧
      (state = .queued → reason = .timeout → slot.batch.request.simulated = true) := by
  cases reason <;> cases state <;>
    simp_all [BatchManager.concerns, ServiceReason.about]

variable {allSlots : List κ} {action : BatchAction κ τ} {old pc : BatchPc κ}

/-- A service that the lane was faster than looks again, at the same batch and for the same reason. -/
theorem PartyRests.retry {slots : κ → BatchSlot}
    {reason : ServiceReason} (h : PartyRests reported slots (.wrote k reason)) :
    PartyRests reported slots (BatchManager.retry k state reason) := by
  have again (state : BatchState) (other : reason ≠ .ready ∧ reason ≠ .timeout) :
      PartyRests reported slots (.saw k state reason) := by
    refine ⟨h.watches, h.reason, fun j st eq => ?_, h.error, h.ends, h.returns,
      fun _ same => absurd same other.2⟩
    cases eq
    exact absurd rfl other.1
  cases reason with
  | completion id status | failure status =>
    simp only [BatchManager.retry]
    split
    · exact again _ (by simp)
    · exact .of_plain rfl
  | timeout | ready => exact .of_plain rfl

/-- What a party's next step rests on once it has moved. -/
theorem BatchMove.rests (h : PartyRests reported s.slots old) (reports : action.Reports reported)
    (moves : BatchMove allSlots s action old pc) : PartyRests reported s.slots pc := by
  -- a slot that was reserved when it was looked at is not watched
  have loaded {k j : κ} {about : Option ℕ} (watching : (if (s.slots k).state = .free ∨
      (s.slots k).state = .reserved then none else some (k, none)) = some (j, about)) :
      (s.slots j).state ≠ .reserved ∧ ∀ id ∈ about, (s.slots j).batch.batchId = id := by
    split at watching <;> cases watching
    next good => exact ⟨fun reserved => good (.inr reserved), nofun⟩
  cases moves with
  | load => exact ⟨fun _ _ => loaded, nofun, nofun, nofun, nofun, nofun, trivial⟩
  | terminal same =>
    refine ⟨fun k about watching => ?_, nofun, nofun, nofun, nofun, nofun, trivial⟩
    cases watching
    refine ⟨(h.watches _ _ rfl).1, fun id member => ?_⟩
    cases member
    exact BatchSlot.batchId_of_matches same
  | rejected error => exact .of_error rfl error trivial
  | @look k reason error =>
    refine ⟨fun _ _ => loaded, fun other same => ?_, nofun, nofun, nofun, nofun, trivial⟩
    cases same
    cases reason with
    | completion id status => exact reports
    | failure status => exact fun ok => error (by rw [ok])
    | timeout => trivial
    | ready => trivial
  | concerned found =>
    obtain ⟨pending, about, ready, simulated⟩ := BatchManager.concerns_pending found
    obtain ⟨busy, taken⟩ := BatchState.holds_of_pending pending
    refine ⟨fun j named watching => ?_, h.reason, fun j st same => ?_, nofun, nofun, nofun, simulated⟩
    · cases watching
      exact ⟨(h.watches _ none (by simp [BatchPc.watches, busy, taken])).1, about⟩
    · cases same
      exact ready rfl
  | aim =>
    refine ⟨fun j named watching => ?_, nofun, nofun, nofun, nofun, nofun,
      fun queued => h.timeout queued rfl, fun _ => rfl⟩
    cases watching
    exact h.watches _ none rfl
  | expire next =>
    obtain ⟨state, released⟩ := h.timeout
    rcases next with ⟨rfl, rate⟩ | ⟨rfl, ordinary⟩
    · exact .of_error rfl (by simp) ⟨rate, released rate⟩
    · exact .of_ends rfl nofun released (by rw [state, ordinary]; rfl)
  | retry => exact h.retry
  | publish kept =>
    obtain ⟨ok, rate, owned⟩ := h.ends _ _ rfl
    refine .of_ends rfl (fun fine => ok ?_) rate owned
    rcases kept with same | ⟨late, -⟩
    · rw [← same, fine]
    · rw [late] at fine
      cases fine
  | settle =>
    obtain ⟨ok, rate, owned⟩ := h.ends _ _ rfl
    exact .of_ends rfl ok rate owned
  | rejectedLost next | acceptedLost next => rcases next with rfl | rfl <;> exact .of_plain rfl
  | _ => exact .of_plain rfl

theorem BatchMove.unwritten (moves : BatchMove allSlots s action old pc) : pc.writes = none := by
  cases moves with
  | @retry k reason =>
    cases reason <;> simp only [BatchManager.retry] <;> (try split) <;> rfl
  | expire next => rcases next with ⟨rfl, -⟩ | ⟨rfl, -⟩ <;> rfl
  | rejectedLost next | acceptedLost next => rcases next with rfl | rfl <;> rfl
  | _ => rfl

theorem BatchSwap.unwritten {expected target : BatchState}
    (swaps : BatchSwap s action old k expected target pc) : pc.writes = none := by
  cases swaps with
  | @claim _ _ reason =>
    cases reason <;> simp only [BatchManager.claimed] <;> (try split) <;> rfl
  | timeout =>
    unfold BatchManager.timedOut
    split <;> rfl
  | _ => rfl

variable [DecidableEq τ] [DecidableEq κ]

/-- A compare-and-swap from a state without a result, or from a free slot that nobody looks at. -/
theorem Terminals.swap (h : Terminals reported s) (accounts : BatchAccounts s)
    {expected target : BatchState}
    (saw : ∀ state, (s.pcs .service).sees = some state → state.pending = true) (rested : s.Rested action)
    (place : s.pcs action.party = old)
    (swaps : BatchSwap s action old k expected target pc) (found : (s.slots k).state = expected) :
    Terminals reported ((s.setState k target).setPc action.party pc) := by
  have unwritten := swaps.unwritten
  have unclaimed : ¬(s.slots k).state.Claimed := found ▸ swaps.unclaimed accounts.unclaimed place
  have holds (busy : expected ≠ .free ∧ expected ≠ .reserved) : s.Holds k := by
    rwa [BatchManager.Holds, found]
  have swapped (unseen : target = .reserved → ∀ y, (s.pcs y).looksAt ≠ some k)
      (tells : SlotTells reported (s.settled.map Prod.fst) { s.slots k with state := target })
      (rests : PartyRests reported
        (update s.slots k { s.slots k with state := target }) pc) :
      Terminals reported ((s.setState k target).setPc action.party pc) :=
    h.change accounts.exclusive _ pc k _ rfl rfl ⟨fun same => .inr (unseen same), fun _ => rfl,
      fun _ _ => rfl, .inl (.inr unclaimed), fun _ busy kept =>
        ⟨(holds ((swaps.holds accounts.holding place).mp ⟨busy, kept⟩)).1, rfl⟩⟩ tells rests
      (fun j writes => by rw [unwritten] at writes; cases writes) (fun _ member => .inl member)
      (fun _ _ _ _ => .rfl) (h.given.same rfl rfl rfl)
  -- who claims a slot without a result gives it one, and a good one only if it was reported
  have claims {status : Status} {published : Bool} (pending : expected.pending = true)
      (owned : target = .owned) (ok : status = .ok → reported (s.slots k).batch.batchId) :
      PartyRests reported (update s.slots k { s.slots k with state := target })
        (.finishing k status published) := by
    refine .of_ends (k := k) rfl ?_ ?_ ?_ <;> rw [update_self]
    · exact ok
    · exact (h.slots k).pending (found ▸ pending)
    · exact owned
  have before := h.slots k
  have open' (pending : expected.pending = true) : (s.slots k).state.pending = true :=
    found ▸ pending
  have rests := h.parties action.party
  rw [place] at rests
  cases swaps with
  | reserve =>
    refine swapped (fun _ => ?_) (.empty (.inr rfl)) (.of_plain rfl)
    have searching : s.pcs (.caller _) = .searching (k :: _) := place
    simp only [BatchManager.Rested, searching] at rested
    exact rested found
  | late | rejectedEarly =>
    exact swapped (by simp) (before.restate (open' rfl) (by simp) (by simp))
      (claims rfl rfl (by simp))
  | rejected =>
    exact swapped (by simp) (before.restate (open' rfl) (by simp) (by simp))
      (claims rfl rfl fun ok => absurd ok (rests.error _ rfl))
  | accepted => exact swapped (by simp) (before.restate (open' rfl) (by simp) (by simp)) (.of_plain rfl)
  | acceptedEarly =>
    exact swapped (by simp) (before.restate (open' rfl) (fun _ => (h.slots k).early (.inl found))
      (by simp)) (.of_plain rfl)
  | offer =>
    exact swapped (by simp) (before.restate (open' rfl) (fun _ => h.wrote k _ place) (by simp))
      (.of_plain rfl)
  | @claim _ _ reason other =>
    have pending := saw _ (congrArg BatchPc.sees place)
    have watching := rests.watches k reason.about rfl
    have sound := rests.reason reason rfl
    refine swapped (by simp) (before.restate (open' pending) (by simp) (by simp)) ?_
    cases reason with
    | completion id status =>
      refine claims pending rfl fun ok => ?_
      rw [watching.2 id rfl]
      exact sound ok
    | failure status =>
      simp only [BatchManager.claimed]
      split
      next ready => exact claims pending rfl ((h.slots k).early (.inr (found.trans ready)))
      next => exact claims pending rfl fun ok => absurd ok sound
    | timeout => exact absurd rfl other
    | ready =>
      exact claims pending rfl ((h.slots k).early (.inr (found.trans (rests.ready k _ rfl))))
  | @timeout _ _ rate =>
    have pending := saw _ (congrArg BatchPc.sees place)
    have held := holds (BatchState.holds_of_pending pending)
    obtain ⟨simulated, owner⟩ := rests.timeout
    have clean := (h.slots k).pending (open' pending)
    obtain rfl := owner held.1
    refine swapped ?_ (before.restate (open' pending) ?_ ?_) ?_
    · cases (s.slots k).rateOwned <;> simp [BatchManager.timeoutTarget]
    · cases (s.slots k).rateOwned <;> simp [BatchManager.timeoutTarget]
    · cases (s.slots k).rateOwned <;> simp [BatchManager.timeoutTarget]
    · unfold BatchManager.timedOut
      split
      next unsent =>
        -- only a simulated batch is timed out before it is sent, and that is a rate batch
        have marking := accounts.books.marking
        have rate := (marking.kind k (.inl held)).trans
          (marking.simulated k (.inl held) (simulated unsent))
        refine .of_error rfl (by simp) ?_
        rw [TimeoutRests, update_self]
        exact ⟨rate, clean rate⟩
      next =>
        constructor
        case timeout =>
          rw [TimeoutRests, update_self]
          exact ⟨rfl, clean⟩
        all_goals simp [BatchPc.watches, BatchPc.reason, BatchPc.error, BatchPc.ends, BatchPc.returns]

variable {x : BatchParty τ}

section

variable (h : Terminals reported s) (exclusive : Exclusive s)
include h exclusive

/-- The owner of a slot without a batch changes it. -/
theorem Terminals.own (place : s.pcs x = .reserved k) (pcs : s'.pcs = update s.pcs x pc)
    (slots : s'.slots = update s.slots k slot)
    (empty : slot.state = .free ∨ slot.state = .reserved) (plain : pc.plain = true)
    (unwritten : pc.writes = none) (held : s'.held = s.held) (settled : s'.settled = s.settled)
    (accepted : s'.accepted = s.accepted) (freed : s'.freed = s.freed) : Terminals reported s' := by
  have reserved := (exclusive.state_at place rfl).reserved
  exact h.change exclusive x pc k slot pcs slots ⟨fun _ => .inl reserved,
    fun other => absurd reserved other, fun _ other => absurd reserved other,
    .inl (.inl ⟨.reserved, by rw [place]; rfl⟩), fun other => absurd reserved other⟩
    (.empty empty) (.of_plain plain)
    (fun j writes => by rw [unwritten] at writes; cases writes)
    (fun ticket member => .inl (held ▸ member)) (fun _ _ _ _ => by rw [settled])
    (h.given.same settled accepted freed)

/-- The batch is published: it has no result yet. -/
theorem Terminals.publish (books : BatchBooks s) (place : s.pcs x = .counted k) :
    Terminals reported { (s.setState k .queued).setPc x .unlocking with
      accepted := s.accepted ++ [(s.slots k).batch] } := by
  have filled : (s.pcs x).fills = some k := place ▸ rfl
  have own := BatchPc.owns_of_fills filled
  have reserved := (exclusive.state x k _ own).reserved
  have fresh := books.ledger.fresh k ⟨x, filled⟩
  have unsettled : (s.slots k).batch.batchId ∉ s.settled.map Prod.fst := by
    intro member
    obtain ⟨b, known, same, -⟩ := h.given.listed _ member
    exact fresh b known same
  have clean := books.marking.clean x k filled
  refine h.change exclusive x .unlocking k _ rfl rfl ⟨nofun, fun other => absurd reserved other,
    fun _ other => absurd reserved other, .inl (.inl ⟨_, own⟩), fun other => absurd reserved other⟩
    ⟨nofun, fun _ _ => clean, nofun, fun _ _ _ => ?_⟩ (.of_plain rfl) nofun
    (fun _ member => .inl member) (fun _ _ _ _ => .rfl)
    ⟨h.given.once, fun id member => ?_, h.given.sound, fun b member rate gone => ?_⟩
  · rw [clean]
    exact ⟨nofun, fun member => absurd member unsettled⟩
  · obtain ⟨b, known, rest⟩ := h.given.listed id member
    exact ⟨b, mem_append_left _ known, rest⟩
  · rcases mem_append.mp member with old | new
    · exact h.given.freed b old rate gone
    · rw [mem_singleton.mp new] at gone
      obtain ⟨c, known, same⟩ := books.ledger.freedListed _ gone
      exact absurd same (fresh c known)

/-- A slot gets its result: it is finished or quarantined. -/
theorem Terminals.give (books : BatchBooks s)
    {way : SettledBy} {status : Status} {valid : Bool} {target : BatchState}
    (own : (s.pcs x).owns = some (k, state)) (held : s.Holds k)
    (rate : (s.slots k).rateOwned = true) (clean : (s.slots k).graphReleased = false)
    (sound : status = .ok → way = .finish ∧ reported (s.slots k).batch.batchId)
    (terminal : target = .rateTerminal ∨ target = .rateQuarantined) :
    Terminals reported { (s.setSlot k { s.slots k with
        graphReleased := true, terminalStatus := status, earlyValid := valid, state := target }).setPc
        x .idle with settled := s.settled ++ [((s.slots k).batch.batchId, way, status)] } := by
  have ids : (s.settled ++ [((s.slots k).batch.batchId, way, status)]).map Prod.fst =
      s.settled.map Prod.fst ++ [(s.slots k).batch.batchId] := map_append
  have unsettled : (s.slots k).batch.batchId ∉ s.settled.map Prod.fst := by
    intro member
    have given := ((h.slots k).settled held.1 held.2 rate).mpr member
    rw [clean] at given
    cases given
  refine h.change exclusive x .idle k _ rfl rfl ⟨fun reserved => ?_, fun _ => rfl, fun _ _ => rfl,
    .inl (.inl ⟨_, own⟩), fun _ _ _ => ⟨held.1, rfl⟩⟩ ⟨fun which => ?_, fun pending => ?_,
    fun _ => ⟨rate, rfl⟩, fun _ _ _ => ?_⟩ (.of_plain rfl) nofun (fun ticket member => .inl member)
    (fun j ne holding _ => ?_) ⟨?_, fun id member => ?_, fun id way' member => ?_,
      fun b member rate gone => ?_⟩
  · rcases terminal with rfl | rfl <;> cases reserved
  · rcases terminal with rfl | rfl <;> rcases which with which | which <;> cases which
  · rcases terminal with rfl | rfl <;> cases pending
  · rw [ids]
    exact ⟨fun _ => mem_append_right _ (mem_singleton_self _), fun _ => rfl⟩
  · rw [ids]
    refine ⟨fun member => ?_, fun member => mem_append_left _ member⟩
    rcases mem_append.mp member with old | new
    · exact old
    · exact absurd (books.ledger.distinct j k (.inl holding) (.inl held)
        (mem_singleton.mp new)) ne
  · rw [ids]
    refine nodup_append.mpr ⟨h.given.once, nodup_singleton _, ?_⟩
    rintro _ old _ new rfl
    exact unsettled (mem_singleton.mp new ▸ old)
  · rw [ids] at member
    rcases mem_append.mp member with old | new
    · exact h.given.listed id old
    · exact ⟨_, books.ledger.listed k held, (mem_singleton.mp new).symm,
        (books.marking.kind k (.inl held)).symm.trans rate⟩
  · rcases mem_append.mp member with old | new
    · exact h.given.sound id way' old
    · obtain ⟨rfl, rfl, ok⟩ : id = _ ∧ way' = way ∧ Status.ok = status := by simpa using new
      exact sound ok.symm
  · rw [ids]
    exact mem_append_left _ (h.given.freed b member rate gone)

/-- The service writes a completion that was reported for the batch that is there. -/
theorem Terminals.write
    {reason : ServiceReason} (place : s.pcs .service = .saw k .submitting reason)
    (offers : reason.offers = true) :
    Terminals reported ((s.setSlot k (BatchManager.writeEarly (s.slots k) reason)).setPc .service
      (.wrote k reason)) := by
  have rests := h.parties .service
  rw [place] at rests
  have watching := rests.watches k reason.about rfl
  have sound := rests.reason reason rfl
  have early : (BatchManager.writeEarly (s.slots k) reason).earlyStatus = .ok →
      reported (s.slots k).batch.batchId := by
    intro ok
    cases reason with
    | completion id status =>
      rw [watching.2 id rfl]
      exact sound ok
    | failure status => exact absurd ok sound
    | timeout => cases offers
    | ready => cases offers
  have kept : (BatchManager.writeEarly (s.slots k) reason).batch = (s.slots k).batch ∧
      (BatchManager.writeEarly (s.slots k) reason).rateOwned = (s.slots k).rateOwned ∧
      (BatchManager.writeEarly (s.slots k) reason).graphReleased = (s.slots k).graphReleased := by
    cases reason <;> exact ⟨rfl, rfl, rfl⟩
  obtain ⟨batch, rate, released⟩ := kept
  have same := BatchManager.writeEarly_state (s.slots k) reason
  have before := h.slots k
  refine h.change exclusive .service (.wrote k reason) k _ rfl rfl
    ⟨fun reserved => .inl (same ▸ reserved), fun _ => batch, fun other => absurd rfl other,
      .inr ⟨batch, rate, released, same⟩, fun _ busy _ => ⟨same ▸ busy, rate⟩⟩
    ⟨fun _ => ?_, ?_, ?_, ?_⟩ ⟨fun j about named => ?_, rests.reason, nofun, nofun, nofun, nofun,
      trivial⟩ (fun j writes => ?_) (fun _ member => .inl member)
    (fun _ _ _ _ => .rfl) (h.given.same rfl rfl rfl)
  · rw [batch]
    exact early
  · rw [same, rate, released]
    exact before.pending
  · rw [same, rate, released]
    exact before.done
  · rw [same, rate, released, batch]
    exact before.settled
  · cases named
    rw [update_self, same, batch]
    exact watching
  · cases writes
    rw [batch]
    exact ⟨rfl, early⟩

/-- The owner of a slot gives it back; a rate batch that was in it has its result. -/
theorem Terminals.vacate (place : s.pcs x = old) (own : old.owns = some (k, .owned))
    (free : slot.state = .free) (batch : slot.batch = (s.slots k).batch)
    (early : slot.earlyStatus = (s.slots k).earlyStatus) (plain : pc.plain = true)
    (unwritten : pc.writes = none)
    (given : ∀ b ∈ s.accepted, b.request.rateIdentity.isSome = true →
      b.batchId = (s.slots k).batch.batchId → b.batchId ∈ s.settled.map Prod.fst) :
    Terminals reported { (s.setSlot k slot).setPc x pc with
      freed := s.freed ++ [(s.slots k).batch.batchId] } := by
  refine h.change exclusive x pc k slot rfl rfl ⟨fun reserved => ?_, fun _ => batch,
    fun _ _ => early, .inl (.inl ⟨.owned, by rw [place, own]⟩), fun _ busy => absurd free busy⟩
    (.empty (.inl free))
    (.of_plain plain) (fun j writes => ?_) (fun ticket member => .inl member) (fun _ _ _ _ => .rfl)
    ⟨h.given.once, h.given.listed, h.given.sound, fun b member rate gone => ?_⟩
  · rw [free] at reserved
    cases reserved
  · rw [unwritten] at writes
    cases writes
  · rcases mem_append.mp gone with old | new
    · exact h.given.freed b member rate old
    · exact given b member rate (mem_singleton.mp new)

end

theorem Terminals.act (h : Terminals reported s) (accounts : BatchAccounts s)
    (saw : ∀ state, (s.pcs .service).sees = some state → state.pending = true)
    (rested : s.Rested action) (reports : action.Reports reported)
    (stepped : s.act allSlots action = some s') : Terminals reported s' := by
  obtain ⟨exclusive, -, -, books⟩ := id accounts
  have rests (x : BatchParty τ) {pc : BatchPc κ} (place : s.pcs x = pc) :
      PartyRests reported s.slots pc := place ▸ h.parties x
  cases BatchManager.act_cases stepped with
  | move place moves =>
    exact h.walk _ _ rfl rfl (moves.rests (rests _ place) reports) moves.unwritten
      (fun _ member => member) rfl rfl rfl
  | swap place swaps found => exact h.swap accounts saw rested place swaps found
  | lock | unlock | count | drop | complete =>
    exact h.walk _ _ rfl rfl (.of_plain rfl) rfl (fun _ member => member) rfl rfl rfl
  | unreserve place => exact h.own exclusive place rfl rfl (.inl rfl) rfl rfl rfl rfl rfl rfl
  | fill request place =>
    exact h.own exclusive place rfl rfl (.inr (exclusive.state_at place rfl).reserved) rfl rfl rfl rfl
      rfl rfl
  | queue place => exact h.publish exclusive books place
  | @take t ticket place terminal =>
    have done := (h.slots ticket.slot).done (.inl terminal)
    have settled := (h.slots ticket.slot).settled (by simp [terminal]) (by simp [terminal])
    refine h.change exclusive (.caller t) .idle ticket.slot _ rfl rfl ⟨by simp, fun _ => rfl,
      fun _ _ => rfl, .inl (.inr (by simp [terminal, BatchState.Claimed])),
      fun _ _ _ => ⟨by simp [terminal], rfl⟩⟩ ⟨by simp, by simp, by simp, fun _ _ => settled⟩
      (.of_plain rfl) (by rintro _ ⟨⟩) ?_
      (fun _ _ _ _ => .rfl) (h.given.same rfl rfl rfl)
    exact forall_mem_concat.mpr ⟨fun _ before => .inl before, .inr ⟨rfl, done.2⟩⟩
  | @check t ticket place same =>
    have held : ticket ∈ s.held :=
      rested ticket (by simp [BatchManager.releaseTakes, place, same])
    exact h.walk (.caller t) _ rfl rfl
      (.of_returns rfl (h.held ticket held) (BatchSlot.batchId_of_matches same)) rfl
      (fun _ member => mem_of_mem_erase member) rfl rfl rfl
  | uncount place =>
    obtain ⟨released, same⟩ := (rests _ place).returns _ _ rfl
    exact h.walk _ _ rfl rfl (.of_returns rfl released same) rfl (fun _ member => member) rfl rfl rfl
  | @giveBack t ticket place =>
    have own : (s.pcs (.caller t)).owns = some (ticket.slot, .owned) := place ▸ rfl
    have rate := books.marking.releases (.caller t) ticket.slot (place ▸ rfl)
    obtain ⟨busy, taken⟩ := exclusive.holds_of_owned own
    have settled := (h.slots ticket.slot).settled busy taken rate
    refine h.vacate exclusive place rfl rfl rfl rfl rfl rfl fun b _ _ same => ?_
    rw [same]
    exact settled.mp ((rests _ place).returns _ _ rfl).1
  | @hand _ _ k place queued =>
    exact h.change exclusive .lane (.calling k) k _ rfl rfl ⟨by simp, fun _ => rfl, fun _ _ => rfl,
      .inl (.inr (by simp [queued, BatchState.Claimed])), fun _ _ _ => ⟨by simp [queued], rfl⟩⟩
      ((h.slots k).restate (by simp [queued]) (by simp) (by simp))
      (.of_plain rfl) (by rintro _ ⟨⟩) (fun _ member => .inl member) (fun _ _ _ _ => .rfl)
      (h.given.same rfl rfl rfl)
  | write place offers => exact h.write exclusive place offers
  | signal place =>
    obtain ⟨ok, rate, owned⟩ := (rests _ place).ends _ _ rfl
    exact h.walk _ _ rfl rfl (.of_ends rfl ok rate owned) rfl (fun _ member => member) rfl rfl rfl
  | @settle x _ k _ place rate =>
    have own : (s.pcs x).owns = some (k, .owned) := place ▸ rfl
    obtain ⟨ok, clean, -⟩ := (rests x place).ends _ _ rfl
    exact h.give exclusive books own (exclusive.holds_of_owned own) rate (clean rate)
      (fun fine => ⟨rfl, ok fine⟩) (.inl rfl)
  | @retire x _ k _ place ordinary =>
    obtain ⟨-, -, state⟩ := (rests x place).ends _ _ rfl
    refine h.change exclusive x _ k _ rfl rfl ⟨fun reserved => .inl reserved, fun _ => rfl,
      fun _ _ => rfl, .inl (.inl ⟨.owned, by rw [place]; rfl⟩), fun _ busy _ => ⟨busy, rfl⟩⟩
      ⟨fun which => ?_,
      fun _ rate => ?_, fun which => ?_, fun _ _ rate => ?_⟩ (.of_plain rfl) (by rintro _ ⟨⟩)
      (fun _ member => .inl member) (fun _ _ _ _ => .rfl) (h.given.same rfl rfl rfl)
    · simp [state] at which
    · simp [ordinary] at rate
    · simp [state] at which
    · simp [ordinary] at rate
  | @free x _ k phaseIndex _ release place =>
    have own : (s.pcs x).owns = some (k, .owned) := place ▸ rfl
    have held := exclusive.holds_of_owned own
    obtain ⟨-, -, ordinary⟩ := books.marking.retires x k phaseIndex release (place ▸ rfl)
    refine h.vacate exclusive place rfl rfl rfl rfl rfl rfl fun b member rate same => ?_
    obtain rfl := inj_on_of_nodup_map books.ledger.once member
      (books.ledger.listed k held) same
    cases ordinary.symm.trans ((books.marking.kind k (.inl held)).trans rate)
  | @quarantine x _ k status place =>
    have own : (s.pcs x).owns = some (k, .owned) := place ▸ rfl
    obtain ⟨rate, clean⟩ := (rests x place).timeout
    exact h.give exclusive books own (exclusive.holds_of_owned own) rate clean
      (fun ok => absurd ok ((rests x place).error _ rfl)) (.inr rfl)

end Moves

end RtRuntime
