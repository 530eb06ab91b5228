import RtRuntime.DeviceBooks

/-!
# The books are kept by every step

Each step of each party is either a move that the books do not see or one of the changes of
`DeviceBooks`; so the books are right after every run that keeps the rule of `release_rate_batch`.
-/

namespace RtRuntime

open BatchManager

variable {κ τ : Type*}

section Kinds

variable {allSlots : List κ} {s : BatchManager κ τ} {action : BatchAction κ τ}

theorem BatchManager.claimed_roles (slot : BatchSlot) (k : κ) (state : BatchState)
    (reason : ServiceReason) :
    (claimed slot k state reason).roles = (BatchPc.idle : BatchPc κ).roles := by
  cases reason <;> simp only [claimed] <;> try rfl
  split <;> rfl

theorem BatchManager.timedOut_roles (k : κ) (state : BatchState) :
    (timedOut k state).roles = (BatchPc.idle : BatchPc κ).roles := by
  unfold timedOut
  split <;> rfl

theorem BatchManager.retry_roles (k : κ) (state : BatchState) (reason : ServiceReason) :
    (retry k state reason).roles = (BatchPc.idle : BatchPc κ).roles := by
  cases reason <;> simp only [retry] <;> try rfl
  all_goals split <;> rfl

/-- The slot holds a batch that is not in quarantine. -/
def BatchState.Live (state : BatchState) : Prop :=
  (state ≠ .free ∧ state ≠ .reserved) ∧ state ≠ .rateQuarantined

/-- What the service acts on holds a batch that is not in quarantine. -/
def SawHolding (s : BatchManager κ τ) : Prop :=
  ∀ state, (s.pcs .service).sees = some state → state.Live

theorem BatchManager.concerns_holding {slot : BatchSlot} {state : BatchState}
    {reason : ServiceReason} (h : concerns slot state reason = true) : state.Live := by
  refine ⟨⟨?_, ?_⟩, ?_⟩ <;> rintro rfl <;> cases reason <;> simp [concerns] at h

/-- The books do not see a party that only moves. -/
theorem BatchMove.roles {old pc : BatchPc κ} (moves : BatchMove allSlots s action old pc) :
    pc.roles = old.roles := by
  cases moves with
  | retry => exact retry_roles _ _ _
  | waitAgain here => rcases here with rfl | ⟨state, rfl⟩ <;> rfl
  | rejectedLost next | acceptedLost next | earlyLost next => rcases next with rfl | rfl <;> rfl
  | changed here => rcases here with ⟨_, rfl⟩ | ⟨_, rfl⟩ <;> rfl
  | expire next => rcases next with ⟨rfl, -⟩ | ⟨rfl, -⟩ <;> rfl
  | _ => rfl

section

variable {old pc : BatchPc κ} {k : κ} {expected target : BatchState}
  (swaps : BatchSwap s action old k expected target pc)
include swaps

theorem BatchSwap.roles : pc.roles = old.roles := by
  cases swaps with
  | claim => exact claimed_roles _ _ _ _
  | timeout => exact timedOut_roles _ _
  | _ => rfl

/-- A slot holds a batch before and after, or neither before nor after. -/
theorem BatchSwap.holds (saw : SawHolding s) (place : s.pcs action.party = old) :
    (target ≠ .free ∧ target ≠ .reserved) ↔ (expected ≠ .free ∧ expected ≠ .reserved) := by
  cases swaps with
  | claim => exact ⟨fun _ => (saw _ (congrArg BatchPc.sees place)).1, fun _ => by simp⟩
  | @timeout _ _ rate =>
    refine ⟨fun _ => (saw _ (congrArg BatchPc.sees place)).1, fun _ => ?_⟩
    cases rate <;> simp [timeoutTarget]
  | _ => simp

theorem BatchSwap.unquarantined (saw : SawHolding s) (place : s.pcs action.party = old) :
    expected ≠ .rateQuarantined := by
  cases swaps with
  | claim | timeout => exact (saw _ (congrArg BatchPc.sees place)).2
  | _ => simp

end

/-- The books and what they rest on. -/
structure BatchAccounts (s : BatchManager κ τ) : Prop where
  exclusive : Exclusive s
  unclaimed : SawUnclaimed s
  holding : SawHolding s
  books : BatchBooks s

theorem BatchManager.Fresh.books (fresh : s.Fresh) : BatchBooks s := by
  have empty (k : κ) : ¬s.Holds k := fun holds => holds.1 (fresh.slots k)
  have unfilled (k : κ) : ¬s.ledger.pends k := by
    simp [ledger, fresh.pcs, BatchPc.fills]
  have unnumbered (k : κ) : ¬s.ledger.Numbered k := not_or.mpr ⟨empty k, unfilled k⟩
  refine ⟨⟨fun k n => absurd n (unnumbered k), fun k n => absurd n (unnumbered k), ?_,
    fun k held => absurd held (empty k), ?_, ?_, ?_⟩,
    .empty unfilled empty (fun x => ?_) fresh.accepted fresh.freed fresh.completions, ?_⟩
  all_goals simp [fresh.pcs, fresh.outstanding, ledger, Counted, empty, BatchPc.fills, BatchPc.counts,
    BatchPc.retires, BatchPc.releases, BatchPc.owes]

theorem BatchManager.Fresh.accounts (fresh : s.Fresh) : BatchAccounts s :=
  ⟨fresh.exclusive, fresh.sawUnclaimed, fun state sees => by simp [fresh.pcs, BatchPc.sees] at sees,
    fresh.books⟩

end Kinds

section Steps

variable [DecidableEq τ] [DecidableEq κ] {allSlots : List κ} {s s' : BatchManager κ τ}
  {action : BatchAction κ τ}

section

variable {x : BatchParty τ} {old pc : BatchPc κ} (h : BatchBooks s) (exclusive : Exclusive s)
  (place : s.pcs x = old) (pcs : s'.pcs = Function.update s.pcs x pc)
include h exclusive place pcs

omit [DecidableEq κ] in
/-- A party moves on and the slots and the books stay as they are. -/
theorem BatchBooks.move (slots : s'.slots = s.slots) (roles : pc.roles = old.roles)
    (lists : DeliverySame s s') (outstanding : s'.outstanding = s.outstanding) : BatchBooks s' :=
  h.walk exclusive x pc pcs (by rw [place, roles]) (fun k => slots ▸ .rfl) lists outstanding

/-- A party moves on and changes one slot. -/
theorem BatchBooks.setSlot {k : κ} {slot : BatchSlot} (slots : s'.slots = Function.update s.slots k slot)
    (roles : pc.roles = old.roles) (kept : SlotKept (s.slots k) slot)
    (lists : DeliverySame s s') (outstanding : s'.outstanding = s.outstanding) : BatchBooks s' := by
  refine h.walk exclusive x pc pcs (by rw [place, roles]) (fun j => ?_) lists outstanding
  by_cases same : j = k
  · subst same
    rwa [update_at slots]
  · rw [update_off slots same]
    exact .rfl

end

/-- Another state for a slot that holds a batch before and after, or neither before nor after. -/
theorem SlotKept.state {slot : BatchSlot} {state : BatchState}
    (unquarantined : slot.state ≠ .rateQuarantined)
    (holds : (state ≠ .free ∧ state ≠ .reserved) ↔
      (slot.state ≠ .free ∧ slot.state ≠ .reserved)) :
    SlotKept slot { slot with state := state } :=
  ⟨Eq.refl _, Eq.refl _, .inl (Eq.refl _), fun same => absurd same unquarantined, holds⟩

theorem BatchBooks.act (h : BatchBooks s) (exclusive : Exclusive s) (saw : SawHolding s)
    (stepped : s.act allSlots action = some s') : BatchBooks s' := by
  cases act_cases stepped with
  | move place moves => exact h.move exclusive place rfl rfl moves.roles ⟨rfl, rfl, rfl, rfl⟩ rfl
  | swap place swaps found =>
    refine h.setSlot exclusive place rfl rfl swaps.roles (.state ?_ ?_) ⟨rfl, rfl, rfl, rfl⟩ rfl <;>
      rw [found]
    · exact swaps.unquarantined saw place
    · exact swaps.holds saw place
  | lock place | unlock place | signal place =>
    exact h.move exclusive place rfl rfl rfl ⟨rfl, rfl, rfl, rfl⟩ rfl
  | unreserve place =>
    have reserved := (exclusive.state_at place rfl).reserved
    exact h.setSlot exclusive place rfl rfl rfl (.state (by simp [reserved]) (by simp [reserved]))
      ⟨rfl, rfl, rfl, rfl⟩ rfl
  | fill request place admitted => exact h.fill exclusive place admitted
  | count place => exact h.count exclusive place
  | queue place => exact h.publish exclusive place
  | take place found | hand place found =>
    exact h.setSlot exclusive place rfl rfl rfl (.state (by simp [found]) (by simp [found]))
      ⟨rfl, rfl, rfl, rfl⟩ rfl
  | check place same => exact h.check exclusive place same
  | uncount place | drop place => exact h.drop exclusive place rfl rfl rfl rfl rfl rfl rfl rfl
  | @giveBack t ticket place =>
    have rate := h.marking.releases (.caller t) ticket.slot (place ▸ rfl)
    exact h.vacate exclusive place rfl ⟨rfl, rfl, rfl⟩ rfl ⟨rfl, rfl, rfl, rfl, rfl⟩ (.inl ⟨rfl, rate⟩)
  | @write k reason place =>
    refine h.setSlot exclusive place rfl rfl rfl ?_ ⟨rfl, rfl, rfl, rfl⟩ rfl
    cases reason <;> exact ⟨rfl, rfl, .inl rfl, id, Iff.rfl⟩
  | @settle x _ k _ place rate =>
    have held : s.Holds k := exclusive.holds_of_owned (x := x) (place ▸ rfl)
    refine h.setSlot exclusive place rfl rfl rfl ⟨rfl, rfl, .inr ⟨.inl rate, held⟩, fun state => ?_,
      fun _ => held, fun _ => ⟨nofun, nofun⟩⟩ ⟨rfl, rfl, rfl, rfl⟩ rfl
    rcases exclusive.state_at place rfl with owned | ⟨owned, -⟩ <;> simp [owned] at state
  | retire place ordinary =>
    exact h.settle exclusive place ordinary
  | @free x _ k phaseIndex _ release place =>
    obtain ⟨rfl, rfl, rate⟩ := h.marking.retires x k phaseIndex release (place ▸ rfl)
    exact h.vacate exclusive place rfl ⟨rfl, rfl, rfl⟩ rfl ⟨rfl, rfl, rfl, rfl, rfl⟩ (.inr ⟨rfl, rate⟩)
  | complete place => exact h.complete exclusive place
  | @quarantine x _ k _ place =>
    have held : s.Holds k := exclusive.holds_of_owned (x := x) (place ▸ rfl)
    exact h.setSlot exclusive place rfl rfl rfl ⟨rfl, rfl, .inr ⟨.inr rfl, held⟩, fun _ => rfl,
      fun _ => held, fun _ => ⟨nofun, nofun⟩⟩ ⟨rfl, rfl, rfl, rfl⟩ rfl

theorem SawHolding.act (h : SawHolding s) (stepped : s.act allSlots action = some s') :
    SawHolding s' :=
  saw_act (fun _ _ _ => concerns_holding) h stepped

theorem BatchAccounts.act (h : BatchAccounts s) (disciplined : s.Disciplined action)
    (stepped : s.act allSlots action = some s') : BatchAccounts s' :=
  ⟨h.exclusive.act h.unclaimed disciplined stepped, h.unclaimed.act stepped, h.holding.act stepped,
    h.books.act h.exclusive h.holding stepped⟩

end Steps

end RtRuntime
