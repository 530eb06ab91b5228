import RtRuntime.ListChanges
import RtRuntime.LiveTransaction

/-!
# Settlement of live-control steps

The slots that the boundaries own are the captures that wait to be settled, each once, and the
generation to go back to is the one the step began with.  Both are kept by every action of the host
and of the producers; what a settled step leaves behind follows.
-/

namespace RtRuntime

open Function LiveTransactionState List

section Invariant

variable {κ μ τ : Type*} [DecidableEq μ]
variable (boxes : LiveMailboxes κ μ)
variable (s : LiveTransactionState κ μ τ)

/-- The slots of a mailbox that are staged or owned by a boundary. -/
def LiveTransactionState.occupied (m : μ) : ℕ :=
  boxes.slots.countP fun slot => boxes.mailboxOf slot = m && (s.slots slot).state.occupies

/-- The slots that wait for settlement: those already published with a generation, and those the
scan under way has taken. -/
def LiveTransactionState.holding : List κ :=
  match s.host with
  | .outside => s.provisional.map (·.slot)
  | .scanning _ _ captured | .looked _ _ _ _ captured =>
    s.provisional.map (·.slot) ++ captured
  | .settling _ rest => rest.map (·.slot)

/-- The slots that the host still refers to belong to the mailbox set. -/
def HostPc.Inside : HostPc κ → Prop
  | .outside | .settling _ _ => True
  | .scanning _ rest _ => ∀ slot ∈ rest, slot ∈ boxes.slots
  | .looked _ slot _ rest _ => slot ∈ boxes.slots ∧ ∀ slot ∈ rest, slot ∈ boxes.slots

/-- A producer that is writing owns its slot. -/
def StagePc.Owns : StagePc κ → Prop
  | .idle => True
  | .writing slot _ _ => slot ∈ boxes.slots ∧ (s.slots slot).state = .writing
  | .rechecking slot _ => slot ∈ boxes.slots

/-- What the transaction has done so far agrees with what settlement will use. -/
structure Transacts : Prop where
  rollback : s.rollbackGeneration = s.begun
  active : s.activeView =
    match s.host with
    | .settling false _ => s.begun
    | _ => s.published.or s.begun
  captures :
    match s.host with
    | .settling success rest =>
      s.settled ++ rest.map (fun entry => (entry.slot, settledState success entry.survivor)) =
        s.captured.map fun capture => (capture.1, settledState success capture.2)
    | _ => s.settled = [] ∧ s.captured = s.provisional.map fun entry => (entry.slot, entry.survivor)
  once : (s.captured.map (·.1)).Nodup

structure TransactionInv : Prop where
  occupancy : ∀ m, s.occupancy m = s.occupied boxes m
  host : s.host.Inside boxes
  owned : ∀ slot, (s.slots slot).state = .boundaryOwned ↔ slot ∈ s.holding
  nodup : s.holding.Nodup
  inside : ∀ slot ∈ s.holding, slot ∈ boxes.slots
  stagers : ∀ t, (s.stagers t).Owns boxes s
  alone : ∀ t t' slot record record' payload payload',
    s.stagers t = .writing slot record payload →
    s.stagers t' = .writing slot record' payload' → t = t'
  idle : s.transactionActive = false → s.host = .outside ∧ s.provisional = []
  transacts : s.transactionActive = true → Transacts s

variable {boxes} {s s' : LiveTransactionState κ μ τ}

attribute [simp] LiveTransactionState.holding LiveTransactionState.setSlot

theorem markSurvivors_map_fst (record : κ → LiveControlUpdateRecord) (slots : List κ) :
    (markSurvivors record slots).map (·.1) = slots := by
  induction slots with
  | nil => rfl
  | cons slot later ih => simp [markSurvivors, ih]

/-- The last captured update survives, so a boundary that captured anything publishes. -/
theorem markSurvivors_survivor {record : κ → LiveControlUpdateRecord} {slots : List κ}
    (none : ((markSurvivors record slots).filter (·.2)).map (·.1) = []) : slots = [] := by
  induction slots with
  | nil => rfl
  | cons slot later ih =>
    rw [map_eq_nil_iff, markSurvivors, filter_cons] at none
    split at none
    next => cases none
    next replaced =>
      have rest : later = [] := ih (by rw [none, map_nil])
      subst rest
      simp at replaced

namespace TransactionInv

section

variable (h : TransactionInv boxes s)
include h

/-- A producer does not write to a slot in another state than `writing`. -/
theorem not_writing {slot : κ}
    (state : (s.slots slot).state ≠ .writing) (t : τ) (record : LiveControlUpdateRecord)
    (payload : List UInt8) : s.stagers t ≠ .writing slot record payload := by
  intro writes
  have owns := h.stagers t
  rw [writes] at owns
  exact state owns.2

theorem running (busy : s.host ≠ .outside) : s.transactionActive = true := by
  by_contra idle
  exact busy (h.idle (by simpa using idle)).1

/-- The host moves on in its transaction, touches no slot and holds what it held. -/
theorem keep (slots : s'.slots = s.slots) (occupancy : s'.occupancy = s.occupancy)
    (stagers : s'.stagers = s.stagers) (holding : s'.holding.Perm s.holding)
    (active : s'.transactionActive = true) (inside : s'.host.Inside boxes)
    (transacts : Transacts s') : TransactionInv boxes s' := by
  have owns (pc : StagePc κ) (old : pc.Owns boxes s) : pc.Owns boxes s' := by
    cases pc with
    | idle => trivial
    | writing slot record payload => exact ⟨old.1, slots ▸ old.2⟩
    | rechecking slot record => exact old
  refine ⟨fun m => ?_, inside, fun k => ?_, holding.nodup_iff.mpr h.nodup,
    fun k member => h.inside k (holding.mem_iff.mp member), fun t => ?_, ?_, fun idle => ?_,
    fun _ => transacts⟩
  · rw [occupancy, LiveTransactionState.occupied, slots]
    exact h.occupancy m
  · rw [slots, holding.mem_iff]
    exact h.owned k
  · rw [stagers]
    exact owns _ (h.stagers t)
  · rw [stagers]
    exact h.alone
  · rw [active] at idle
    cases idle

theorem begin (stepped : s.begin = some s') : TransactionInv boxes s' := by
  simp only [LiveTransactionState.begin] at stepped
  split at stepped
  next outside =>
    split at stepped
    next => cases stepped
    next inactive =>
      cases stepped
      have empty : s.provisional = [] := (h.idle (by simpa using inactive)).2
      refine h.keep rfl rfl rfl (.of_eq ?_) rfl h.host ⟨rfl, ?_, ?_, nodup_nil⟩
      · simp [outside, empty]
      · simp only [outside, Option.none_or]
        rfl
      · simp [outside]
  next => cases stepped

theorem close {call : BoundaryCall}
    (stepped : s.close boxes call = some s') : TransactionInv boxes s' := by
  simp only [LiveTransactionState.close] at stepped
  split at stepped
  next outside =>
    split at stepped
    next running =>
      cases stepped
      have holding : ∀ next : HostPc κ, (next = .outside ∨ ∃ target, next =
          .scanning target boxes.slots []) →
          { s with
            boundaries := (s.boundaries.call boxes.targets call).1
            host := next }.holding = s.holding := by
        rintro next (rfl | ⟨target, rfl⟩) <;> simp [outside]
      generalize hnext : HostPc.enter boxes.slots (s.boundaries.call boxes.targets call).2 = next
      have shape : next = .outside ∨ ∃ target, next = .scanning target boxes.slots [] := by
        subst hnext
        cases (s.boundaries.call boxes.targets call).2 with
        | none => exact .inl rfl
        | some target => exact .inr ⟨target, rfl⟩
      refine h.keep rfl rfl rfl (.of_eq (holding next shape)) running ?_ ?_
      · rcases shape with rfl | ⟨target, rfl⟩
        · trivial
        · exact fun slot member => member
      · obtain ⟨rollback, view, captures, once⟩ := h.transacts running
        simp only [outside] at view captures
        rcases shape with rfl | ⟨target, rfl⟩
        · exact ⟨rollback, view, captures, once⟩
        · exact ⟨rollback, view, captures, once⟩
    next => cases stepped
  next => cases stepped

theorem publishGeneration {target : LiveControlBoundaryTarget} {captured : List κ}
    (host : s.host = .scanning target [] captured) :
    TransactionInv boxes (s.publishGeneration boxes target captured) := by
  have running := h.running (by rw [host]; exact nofun)
  have holding : s.holding = s.provisional.map (·.slot) ++ captured := by
    simp [host]
  obtain ⟨rollback, view, captures, once⟩ := h.transacts running
  simp only [host] at view captures
  obtain ⟨settled, captureEq⟩ := captures
  simp only [LiveTransactionState.publishGeneration]
  generalize sorted : captured.mergeSort (fun left right =>
    captureOrder (s.slots left).record (s.slots right).record) = order
  have perm : order.Perm captured := sorted ▸ mergeSort_perm _ _
  split
  next none =>
    -- nothing was captured, so the boundary owns what it owned before
    obtain rfl : order = [] := markSurvivors_survivor none
    obtain rfl : captured = [] := perm.nil_eq.symm
    rw [append_nil] at holding
    exact h.keep rfl rfl rfl (.of_eq (by rw [holding]; rfl)) running trivial
      ⟨rollback, view, ⟨settled, captureEq⟩, once⟩
  next some =>
    have slots : ∀ identity prior, ((s.provisional ++
        (markSurvivors (fun slot => (s.slots slot).record) order).map fun entry =>
          (⟨entry.1, identity, prior, entry.2⟩ : ProvisionalRecord κ)).map (·.slot)) =
        s.provisional.map (·.slot) ++ order := by
      intro identity prior
      rw [map_append, map_map]
      exact congrArg _ (markSurvivors_map_fst _ order)
    have permHolding : (s.provisional.map (·.slot) ++ order).Perm s.holding := by
      rw [holding]
      exact perm.append_left _
    refine h.keep rfl rfl rfl ?_ running trivial ⟨rollback, ?_, ⟨settled, ?_⟩, ?_⟩
    · rw [LiveTransactionState.holding, slots]
      exact permHolding
    · simp [activeView]
    · simp only [captureEq, map_append, map_map]
      congr 1
      exact (map_id _).symm
    · have fsts : ((s.captured ++ markSurvivors (fun slot => (s.slots slot).record) order).map
          (·.1)) = s.provisional.map (·.slot) ++ order := by
        rw [map_append, markSurvivors_map_fst, captureEq, map_map]
        rfl
      rw [fsts]
      exact permHolding.nodup_iff.mpr h.nodup

/-- A look, or a slot passed by: only the host moves. -/
theorem moveHost (next : HostPc κ)
    (running : s.transactionActive = true) (inside : next.Inside boxes)
    (holding : { s with host := next }.holding = s.holding)
    (scans : ∀ success rest, s.host ≠ .settling success rest ∧ next ≠ .settling success rest) :
    TransactionInv boxes { s with host := next } := by
  obtain ⟨rollback, view, captures, once⟩ := h.transacts running
  refine h.keep rfl rfl rfl (.of_eq holding) running inside ⟨rollback, ?_, ?_, once⟩
  · have old : s.activeView = s.published.or s.begun := by
      rw [view]
      split
      next rest host => exact absurd host (scans false rest).1
      next => rfl
    refine Eq.trans old ?_
    split
    next rest host => exact absurd host (scans false rest).2
    next => rfl
  · have old : s.settled = [] ∧
        s.captured = s.provisional.map fun entry => (entry.slot, entry.survivor) := by
      split at captures
      next success rest host => exact absurd host (scans success rest).1
      next => exact captures
    split
    next success rest host => exact absurd host (scans success rest).2
    next => exact old

theorem settle {success : Bool}
    (stepped : s.settle success = some s') : TransactionInv boxes s' := by
  simp only [LiveTransactionState.settle] at stepped
  split at stepped
  next outside =>
    split at stepped
    next running =>
      cases stepped
      obtain ⟨rollback, view, captures, once⟩ := h.transacts running
      simp only [outside] at view captures
      obtain ⟨settled, captureEq⟩ := captures
      have holding : ∀ s'' : LiveTransactionState κ μ τ,
          s''.host = .settling success s.provisional → s''.holding = s.holding := by
        intro s'' host
        simp only [LiveTransactionState.holding, host, outside]
      have pending : s.settled ++ s.provisional.map
          (fun entry => (entry.slot, settledState success entry.survivor)) =
          s.captured.map fun capture => (capture.1, settledState success capture.2) := by
        rw [settled, captureEq, map_map, nil_append]
        rfl
      have finish : ∀ (generations : Bool → LiveGeneration) (active has : Bool),
          ((if has then some (generations active) else none) =
            if success then s.published.or s.begun else s.begun) →
          TransactionInv boxes { s with
            host := .settling success s.provisional
            generations := generations
            activeGeneration := active
            hasGeneration := has } := by
        intro generations active has shows
        refine h.keep rfl rfl rfl (.of_eq (holding _ rfl)) running trivial
          ⟨rollback, ?_, pending, once⟩
        cases success <;> simpa [activeView] using shows
      cases success with
      | true => exact finish _ _ _ view
      | false =>
        simp only [Bool.false_eq_true, if_false]
        split
        next generation copy =>
          refine finish (update s.generations (!s.activeGeneration) generation)
            (!s.activeGeneration) true ?_
          simp [← rollback, copy]
        next copy =>
          refine finish s.generations s.activeGeneration false ?_
          simp [← rollback, copy]
    next => cases stepped
  next => cases stepped

end

end TransactionInv

/-- A mailbox set outside every call, with nothing captured and the occupancy counted: freshly
created, or restored. -/
structure LiveTransactionState.Fresh (boxes : LiveMailboxes κ μ) (s : LiveTransactionState κ μ τ) :
    Prop where
  host : s.host = .outside
  stagers : ∀ t, s.stagers t = .idle
  inactive : s.transactionActive = false
  provisional : s.provisional = []
  unowned : ∀ slot, (s.slots slot).state ≠ .boundaryOwned
  occupancy : ∀ m, s.occupancy m = s.occupied boxes m

/-- No stage and no close is in progress. -/
def LiveTransactionState.Quiet (s : LiveTransactionState κ μ τ) : Prop :=
  s.host = .outside ∧ ∀ t, s.stagers t = .idle

theorem LiveTransactionState.Fresh.inv (fresh : s.Fresh boxes) : TransactionInv boxes s := by
  have holding : s.holding = [] := by
    simp [fresh.host, fresh.provisional]
  refine ⟨fresh.occupancy, by rw [fresh.host]; trivial, fun slot => ?_, ?_, ?_, fun t => ?_, ?_,
    fun _ => ⟨fresh.host, fresh.provisional⟩, fun active => ?_⟩
  · rw [holding]
    exact ⟨fun owned => absurd owned (fresh.unowned slot), nofun⟩
  · rw [holding]
    exact nodup_nil
  · rw [holding]
    exact nofun
  · rw [fresh.stagers t]
    trivial
  · intro t t' slot record record' payload payload' writes
    rw [fresh.stagers t] at writes
    cases writes
  · rw [fresh.inactive] at active
    cases active

end Invariant

section Steps

variable {κ μ τ : Type*} [DecidableEq κ] [DecidableEq μ] [DecidableEq τ]
variable {boxes : LiveMailboxes κ μ} {s s' : LiveTransactionState κ μ τ}

section Slots

omit [DecidableEq τ]

theorem LiveTransactionState.setSlot_occupancy (h : ∀ m, s.occupancy m = s.occupied boxes m)
    {slot : κ} (member : slot ∈ boxes.slots) (value : LiveSlot) (m : μ) :
    (s.setSlot boxes slot value).occupancy m = (s.setSlot boxes slot value).occupied boxes m := by
  have update := countP_update boxes.nodup member
    (fun k => decide (boxes.mailboxOf k = m) && (s.slots k).state.occupies)
    (fun k => decide (boxes.mailboxOf k = m) &&
      ((s.setSlot boxes slot value).slots k).state.occupies)
    (fun j _ other => by simp [other])
  have before := h m
  simp only [occupied] at before ⊢
  by_cases here : boxes.mailboxOf slot = m
  · subst here
    simp only [LiveTransactionState.setSlot, update_self, decide_true,
      Bool.true_and] at update ⊢
    omega
  · have apart : m ≠ boxes.mailboxOf slot := Ne.symm here
    simp only [here, decide_false, Bool.false_and, Bool.false_eq_true, if_false,
      Nat.add_zero] at update
    rw [update]
    simpa [apart] using before

@[simp] theorem LiveTransactionState.setSlot_self (slot : κ) (value : LiveSlot) :
    (s.setSlot boxes slot value).slots slot = value := by
  simp

theorem LiveTransactionState.setSlot_of_ne {slot other : κ} (ne : other ≠ slot) (value : LiveSlot) :
    (s.setSlot boxes slot value).slots other = s.slots other := by
  simp [ne]

/-- A change between states that no boundary owns leaves alone what the boundaries own. -/
theorem owned_setSlot (boxes : LiveMailboxes κ μ) {holding : List κ}
    (owned : ∀ k, (s.slots k).state = .boundaryOwned ↔ k ∈ holding) {slot : κ} {value : LiveSlot}
    (before : (s.slots slot).state ≠ .boundaryOwned) (after : value.state ≠ .boundaryOwned) (k : κ) :
    ((s.setSlot boxes slot value).slots k).state = .boundaryOwned ↔ k ∈ holding := by
  by_cases same : k = slot
  · subst same
    rw [LiveTransactionState.setSlot_self]
    exact ⟨fun now => absurd now after, fun member => absurd ((owned k).mpr member) before⟩
  · rw [LiveTransactionState.setSlot_of_ne same]
    exact owned k

/-- A change of a slot that no producer writes to leaves the producers what they own. -/
theorem StagePc.Owns.setSlot {pc : StagePc κ} (h : pc.Owns boxes s) {slot : κ} {value : LiveSlot}
    (apart : ∀ record payload, pc = .writing slot record payload → value.state = .writing) :
    pc.Owns boxes (s.setSlot boxes slot value) := by
  cases pc with
  | idle => trivial
  | rechecking other record => exact h
  | writing other record payload =>
    refine ⟨h.1, ?_⟩
    by_cases same : other = slot
    · subst same
      rw [LiveTransactionState.setSlot_self]
      exact apart record payload rfl
    · rw [LiveTransactionState.setSlot_of_ne same]
      exact h.2

end Slots

namespace TransactionInv

section

variable (h : TransactionInv boxes s)
include h

omit [DecidableEq κ] in
/-- A producer that begins to write takes a slot that nobody writes to. -/
theorem alone_update {t : τ} {pc : StagePc κ}
    (own : ∀ slot record payload, pc = .writing slot record payload →
      (s.slots slot).state ≠ .writing) (a b : τ) (slot : κ)
    (record record' : LiveControlUpdateRecord) (payload payload' : List UInt8)
    (first : update s.stagers t pc a = .writing slot record payload)
    (second : update s.stagers t pc b = .writing slot record' payload') : a = b := by
  rcases update_cases (P := (· = _)) first with ⟨rfl, new⟩ | ⟨-, old⟩ <;>
    rcases update_cases (P := (· = _)) second with ⟨rfl, new'⟩ | ⟨-, old'⟩
  · rfl
  · exact absurd old' (h.not_writing (own _ _ _ new) b _ _)
  · exact absurd old (h.not_writing (own _ _ _ new') a _ _)
  · exact h.alone a b slot _ _ _ _ old old'

theorem claim {t : τ} {slot : κ} {record : LiveControlUpdateRecord} {payload : List UInt8}
    (stepped : s.claim boxes t slot record payload = some s') : TransactionInv boxes s' := by
  simp only [LiveTransactionState.claim] at stepped
  split at stepped
  next idle =>
    split at stepped
    next allowed =>
      cases stepped
      obtain ⟨member, -, available⟩ := allowed
      have unused : (s.slots slot).state ≠ .boundaryOwned ∧ (s.slots slot).state ≠ .writing := by
        constructor <;> intro used <;> simp [used, LiveSlotState.terminal] at available
      refine ⟨LiveTransactionState.setSlot_occupancy h.occupancy member _, h.host,
        owned_setSlot boxes h.owned unused.1 nofun, h.nodup, h.inside,
        (forall_update_iff _ fun _ => StagePc.Owns boxes _).mpr ⟨⟨member, by simp [setState]⟩,
          fun t' _ => (h.stagers t').setSlot fun _ _ _ => rfl⟩,
        h.alone_update fun k _ _ same => ?_, h.idle, fun active => ?_⟩
      · cases same
        exact unused.2
      · exact { h.transacts active with }
    next => cases stepped
  next => cases stepped

theorem publish {t : τ} (stepped : s.publish boxes t = some s') : TransactionInv boxes s' := by
  simp only [LiveTransactionState.publish] at stepped
  split at stepped
  next slot record payload writes =>
    cases stepped
    have owns := h.stagers t
    rw [writes] at owns
    obtain ⟨member, writing⟩ := owns
    refine ⟨LiveTransactionState.setSlot_occupancy h.occupancy member _, h.host,
      owned_setSlot boxes h.owned (by rw [writing]; exact nofun) nofun, h.nodup, h.inside,
      (forall_update_iff _ fun _ => StagePc.Owns boxes _).mpr ⟨member, fun t' other => ?_⟩,
      h.alone_update nofun, h.idle, fun active => ?_⟩
    · refine (h.stagers t').setSlot fun record' payload' writes' => ?_
      exact absurd (h.alone t' t slot _ _ _ _ writes' writes) other
    · exact { h.transacts active with }
  next => cases stepped

theorem recheck {t : τ} (stepped : s.recheck boxes t = some s') : TransactionInv boxes s' := by
  simp only [LiveTransactionState.recheck] at stepped
  split at stepped
  next slot record rechecks =>
    cases stepped
    have member : slot ∈ boxes.slots := by
      have owns := h.stagers t
      rwa [rechecks] at owns
    generalize next : (if (s.slots slot).state ≠ .staged then (s.slots slot).state
      else if (!s.boundaries.admissionOpen) = true then .stopped
      else if s.boundaries.targetClosed boxes.targets record = true then .missed
      else .staged) = state
    -- only a staged slot changes, and to a state nobody owns
    have change : state = (s.slots slot).state ∨
        ((s.slots slot).state = .staged ∧ state ≠ .boundaryOwned ∧ state ≠ .writing) := by
      subst next
      split
      · exact .inl rfl
      next staged =>
        refine .inr ⟨not_not.mp staged, ?_⟩
        split
        · exact ⟨nofun, nofun⟩
        · split <;> exact ⟨nofun, nofun⟩
    refine ⟨LiveTransactionState.setSlot_occupancy h.occupancy member _, h.host, fun k => ?_,
      h.nodup, h.inside, (forall_update_iff _ fun _ => StagePc.Owns boxes _).mpr
        ⟨trivial, fun t' _ => ?_⟩, h.alone_update nofun, h.idle, fun active => ?_⟩
    · rcases change with same | ⟨staged, notOwned, -⟩
      · by_cases here : k = slot
        · subst here
          simp only [setState, LiveTransactionState.setSlot_self, same]
          exact h.owned k
        · simp only [setState, LiveTransactionState.setSlot_of_ne here]
          exact h.owned k
      · exact owned_setSlot boxes h.owned (by rw [staged]; exact nofun) notOwned k
    · refine (h.stagers t').setSlot fun record' payload' writes => ?_
      have owns := h.stagers t'
      rw [writes] at owns
      rcases change with still | ⟨staged, -⟩
      · exact still.trans owns.2
      · cases staged.symm.trans owns.2
    · exact { h.transacts active with }
  next => cases stepped

omit [DecidableEq τ] in
theorem scan (stepped : s.scan boxes = some s') : TransactionInv boxes s' := by
  simp only [LiveTransactionState.scan] at stepped
  split at stepped
  next target slot rest captured host =>
    have inside := h.host
    rw [host] at inside
    have active := h.running (by rw [host]; exact nofun)
    have scans : ∀ next : HostPc κ, (∀ success rest, next ≠ .settling success rest) →
        ∀ success rest, s.host ≠ .settling success rest ∧ next ≠ .settling success rest :=
      fun next other success rest => ⟨by rw [host]; exact nofun, other success rest⟩
    split at stepped
    · cases stepped
      exact h.moveHost _ active (forall_mem_cons.mp inside) (by simp [host]) (scans _ nofun)
    · cases stepped
      exact h.moveHost _ active (forall_mem_cons.mp inside).2 (by simp [host]) (scans _ nofun)
  next target slot current rest captured host =>
    have inside := h.host
    rw [host] at inside
    have active := h.running (by rw [host]; exact nofun)
    have holding : s.holding = s.provisional.map (·.slot) ++ captured := by
      simp [host]
    obtain ⟨rollback, view, captures, once⟩ := h.transacts active
    simp only [host] at view captures
    split at stepped
    next staged =>
      have notWriting : ∀ t record payload, s.stagers t ≠ .writing slot record payload :=
        h.not_writing (by rw [staged]; exact nofun)
      split at stepped
      · -- the slot is taken: it joins what the boundary holds
        cases stepped
        have fresh : slot ∉ s.holding := fun member => by
          have := (h.owned slot).mpr member
          rw [staged] at this
          cases this
        have grown : LiveTransactionState.holding
            { s.setState boxes slot .boundaryOwned with
              host := .scanning target rest (captured ++ [slot]) } = s.holding ++ [slot] := by
          rw [holding, append_assoc]
          rfl
        refine ⟨LiveTransactionState.setSlot_occupancy h.occupancy inside.1 _, inside.2,
          fun k => ?_, ?_, ?_, fun t => ?_, h.alone, fun idle => ?_,
          fun _ => ⟨rollback, view, captures, once⟩⟩
        · rw [grown, mem_append, mem_singleton]
          by_cases same : k = slot
          · subst same
            simp [setState]
          · simp only [setState, LiveTransactionState.setSlot_of_ne same]
            exact (h.owned k).trans ⟨.inl, fun either => either.resolve_right same⟩
        · rw [grown]
          exact h.nodup.append (nodup_singleton slot) (by simpa using fresh)
        · rw [grown]
          exact forall_mem_concat.mpr ⟨h.inside, inside.1⟩
        · exact (h.stagers t).setSlot fun record payload writes =>
            absurd writes (notWriting t record payload)
        · exact absurd active (by simp only at idle; simp_all [setState])
      · cases stepped
        have same : LiveTransactionState.holding
            { s.setSlot boxes slot
                { s.slots slot with state := .missed, terminalGeneration := 0 } with
              host := .scanning target rest captured } = s.holding := by
          rw [holding]
          rfl
        refine ⟨LiveTransactionState.setSlot_occupancy h.occupancy inside.1 _, inside.2,
          fun k => ?_, ?_, ?_, fun t => ?_, h.alone, fun idle => ?_,
          fun _ => ⟨rollback, view, captures, once⟩⟩
        · rw [same]
          exact owned_setSlot boxes h.owned (by rw [staged]; exact nofun) (by simp) k
        · rw [same]
          exact h.nodup
        · rw [same]
          exact h.inside
        · exact (h.stagers t).setSlot fun record payload writes =>
            absurd writes (notWriting t record payload)
        · exact absurd active (by simp only at idle; simp_all)
    next =>
      cases stepped
      exact h.moveHost _ active inside.2 (by simp [host])
        fun success rest => ⟨by rw [host]; exact nofun, nofun⟩
  next target captured host =>
    cases stepped
    exact h.publishGeneration host
  next => cases stepped

omit [DecidableEq τ] in
theorem settleNext (stepped : s.settleNext boxes = some s') : TransactionInv boxes s' := by
  simp only [LiveTransactionState.settleNext] at stepped
  split at stepped
  next success entry rest host =>
    cases stepped
    have active := h.running (by rw [host]; exact nofun)
    have holding : s.holding = entry.slot :: rest.map (·.slot) := by
      simp [host]
    have owned : (s.slots entry.slot).state = .boundaryOwned :=
      (h.owned entry.slot).mpr (by rw [holding]; exact mem_cons_self)
    have member : entry.slot ∈ boxes.slots :=
      h.inside _ (by rw [holding]; exact mem_cons_self)
    have nodup := h.nodup
    rw [holding] at nodup
    obtain ⟨fresh, nodup⟩ := nodup_cons.mp nodup
    have ends : settledState success entry.survivor ≠ .boundaryOwned := by
      cases success <;> cases entry.survivor <;> exact nofun
    obtain ⟨rollback, view, captures, once⟩ := h.transacts active
    simp only [host] at view captures
    refine ⟨LiveTransactionState.setSlot_occupancy h.occupancy member _, trivial, fun k => ?_,
      nodup, fun k inside => ?_, fun t => ?_, h.alone, fun idle => ?_,
      fun _ => ⟨rollback, ?_, ?_, once⟩⟩
    · by_cases same : k = entry.slot
      · subst same
        simp only [LiveTransactionState.setSlot_self]
        exact ⟨fun now => absurd now ends, fun inside => absurd inside fresh⟩
      · simp only [LiveTransactionState.setSlot_of_ne same]
        refine (h.owned k).trans ?_
        rw [holding, mem_cons]
        exact ⟨fun either => either.resolve_left same, .inr⟩
    · exact h.inside k (by rw [holding]; exact mem_cons_of_mem _ inside)
    · exact (h.stagers t).setSlot fun record payload writes =>
        absurd writes (h.not_writing (by rw [owned]; exact nofun) t record payload)
    · exact absurd active (by simp only at idle; simp_all)
    · cases success <;> exact view
    · change (s.settled ++ [_]) ++ _ = _
      rw [append_assoc]
      exact captures
  next success host =>
    cases stepped
    have holding : s.holding = [] := by simp [host]
    refine ⟨h.occupancy, trivial, fun k => ?_, nodup_nil, nofun, h.stagers, h.alone,
      fun _ => ⟨rfl, rfl⟩, nofun⟩
    have := h.owned k
    rw [holding] at this
    exact this
  next => cases stepped

/-- Every action of the host and of the producers keeps the invariant. -/
theorem act {a : LiveAction κ τ} (stepped : s.act boxes a = some s') : TransactionInv boxes s' := by
  cases a with
  | claim t slot record payload => exact h.claim stepped
  | publish t => exact h.publish stepped
  | recheck t => exact h.recheck stepped
  | closeAdmission =>
    cases stepped
    exact { h with transacts := fun active => { h.transacts active with } }
  | begin => exact h.begin stepped
  | close call => exact h.close stepped
  | scan => exact h.scan stepped
  | settle success => exact h.settle stepped
  | settleNext => exact h.settleNext stepped

theorem run {actions : List (LiveAction κ τ)}
    (reached : runActions (LiveTransactionState.act boxes) s actions = some s') :
    TransactionInv boxes s' :=
  runActions_invariant (I := TransactionInv boxes)
    (fun _ _ _ h (_ : True) stepped => h.act stepped) h (fun _ _ => trivial) reached

end

end TransactionInv

/-- In every interleaving no two producers write one slot, and between steps no slot is left to a
boundary. -/
theorem live_slots_returned (fresh : s.Fresh boxes) {actions : List (LiveAction κ τ)}
    (reached : runActions (LiveTransactionState.act boxes) s actions = some s') :
    (s'.transactionActive = false → ∀ slot, (s'.slots slot).state ≠ .boundaryOwned) ∧
    ∀ t t' slot record record' payload payload', s'.stagers t = .writing slot record payload →
      s'.stagers t' = .writing slot record' payload' → t = t' := by
  have inv := fresh.inv.run reached
  refine ⟨fun inactive slot owned => ?_, inv.alone⟩
  obtain ⟨host, none⟩ := inv.idle inactive
  have waits := (inv.owned slot).mp owned
  simp [host, none] at waits

end Steps

section Inputs

/-- Two slots of one mailbox, no rate releases, and generations named by their frame. -/
def twoSlots : LiveMailboxes Bool Unit where
  slots := [false, true]
  nodup := by decide
  mailboxOf _ := ()
  targets := []
  identify target _ := target.frameIndex

def frameRecord (frameIndex mailboxSequence : UInt64) : LiveControlUpdateRecord where
  mailboxIdentity := 1
  producerIdentity := 1
  mailboxSequence := mailboxSequence
  producerSequence := mailboxSequence
  payloadDigest := 0
  payloadBytes := 0
  updateKind := .scenarioParameters
  target := { kind := .hostFrame, frameIndex := frameIndex }

def emptyMailboxes : LiveTransactionState Bool Unit Unit where
  slots _ := { state := .free, record := frameRecord 0 0, payload := [], terminalGeneration := 0 }
  occupancy _ := 0
  reservation _ := false
  boundaries :=
    { admissionOpen := true
      hostBoundaryStarted := false
      lastHostBoundary := 0
      closed := fun _ => false }
  generations _ := { generationIdentity := 0, target := {}, records := [] }
  activeGeneration := false
  hasGeneration := false
  transactionActive := false
  rollbackGeneration := none
  provisional := []
  host := .outside
  stagers _ := .idle
  begun := none
  published := none
  captured := []
  settled := []

theorem emptyMailboxes_fresh : emptyMailboxes.Fresh twoSlots :=
  ⟨rfl, fun _ => rfl, rfl, rfl, nofun, fun _ => rfl⟩

/-- An update for frame 1 is staged, the step closes frame 1 and fails, and one slot is rolled back. -/
def failingStep : List (LiveAction Bool Unit) :=
  [.claim () false (frameRecord 1 1) [7], .publish (), .recheck (), .begin,
    .close (.closeHostFrame 1), .scan, .scan, .scan, .scan, .settle false, .settleNext]

/-- All slots of a failed step are rolled back. -/
def HostPc.failed : HostPc Bool → Bool
  | .settling false [] => true
  | _ => false

theorem failingStep_returns :
    ∃ s', runActions (LiveTransactionState.act twoSlots) emptyMailboxes
      (failingStep ++ [.settleNext]) = some s' ∧ ∀ slot, (s'.slots slot).state ≠ .boundaryOwned := by
  obtain ⟨s', reached, inactive⟩ := Option.map_eq_some_iff.mp (by decide +kernel :
    (runActions (LiveTransactionState.act twoSlots) emptyMailboxes
      (failingStep ++ [.settleNext])).map (·.transactionActive) = some false)
  exact ⟨s', reached, (live_slots_returned emptyMailboxes_fresh reached).1 inactive⟩

end Inputs

end RtRuntime
