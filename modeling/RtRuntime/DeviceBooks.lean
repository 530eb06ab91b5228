import RtRuntime.DeviceOwnership
import RtRuntime.Ledger

/-!
# The books of a backend's batches

Every accepted batch is in one slot or was freed once; every ordinary batch that was freed has been
reported to the graph once, with its own phase, or the party that freed it is about to; and the
counter of outstanding batches is the number of slots that are counted.  The first two parts say that
the batches keep a sound ledger; beside it stand the marks in the slots, by which a party knows
whether to report.
-/

namespace RtRuntime

open Function BatchManager List

variable {κ τ : Type*}

namespace BatchPc

/-- The slot that `submit_batch` has filled and not published yet. -/
def fills : BatchPc κ → Option κ
  | .filled k | .counted k => some k
  | _ => none

/-- The slot that is counted before it is published. -/
def counts : BatchPc κ → Option κ
  | .counted k => some k
  | _ => none

/-- The slot that is no longer counted and not free yet. -/
def drops : BatchPc κ → Option κ
  | .freeing k _ _ _ => some k
  | .releaseFreeing ticket => some ticket.slot
  | _ => none

/-- The slot that is retired, with what `retire_device_batch_slot` has captured. -/
def retires : BatchPc κ → Option (κ × ℕ × Bool)
  | .retiring k phaseIndex _ release | .freeing k phaseIndex _ release =>
    some (k, phaseIndex, release)
  | _ => none

/-- The slot that `release_rate_batch` is giving back. -/
def releases : BatchPc κ → Option κ
  | .releasing ticket | .releaseFreeing ticket => some ticket.slot
  | _ => none

/-- The call of `complete_external` that is still to be made. -/
def owes : BatchPc κ → Option (ℕ × ℕ × Bool)
  | .completing batchId phaseIndex _ release => some (batchId, phaseIndex, release)
  | _ => none

/-- Everything that the books depend on. -/
def roles (pc : BatchPc κ) :=
  (pc.fills, pc.counts, pc.drops, pc.retires, pc.releases, pc.owes)

variable {pc : BatchPc κ} {k : κ}

theorem owns_of_fills (h : pc.fills = some k) :
    pc.owns = some (k, .reserved) := by
  cases pc <;> simp_all [fills, owns]

theorem fills_of_counts (h : pc.counts = some k) : pc.fills = some k := by
  cases pc <;> simp_all [counts, fills]

theorem owns_of_drops (h : pc.drops = some k) :
    pc.owns = some (k, .owned) := by
  cases pc <;> simp_all [drops, owns]

theorem owns_of_retires {phaseIndex : ℕ} {release : Bool}
    (h : pc.retires = some (k, phaseIndex, release)) : pc.owns = some (k, .owned) := by
  cases pc <;> simp_all [retires, owns]

theorem owns_of_releases (h : pc.releases = some k) :
    pc.owns = some (k, .owned) := by
  cases pc <;> simp_all [releases, owns]

/-- The party owns this slot or none. -/
def OwnsAtMost (pc : BatchPc κ) (k : κ) : Prop :=
  pc.owns = none ∨ ∃ state, pc.owns = some (k, state)

theorem OwnsAtMost.eq_of_owns {j : κ} {state : BatchState} (h : pc.OwnsAtMost k)
    (owns : pc.owns = some (j, state)) : j = k := by
  rcases h with none | ⟨state', some⟩
  · rw [none] at owns
    cases owns
  · exact (Prod.mk.inj (Option.some.inj (owns.symm.trans some))).1

theorem OwnsAtMost.drops_ne {j : κ} (h : pc.OwnsAtMost k) (ne : j ≠ k) :
    pc.drops ≠ some j :=
  fun drops => ne (h.eq_of_owns (owns_of_drops drops))

theorem OwnsAtMost.counts_ne {j : κ} (h : pc.OwnsAtMost k) (ne : j ≠ k) :
    pc.counts ≠ some j :=
  fun counts => ne (h.eq_of_owns (owns_of_fills (fills_of_counts counts)))

end BatchPc

section Books

variable (s : BatchManager κ τ)

/-- The slot holds an accepted batch. -/
def BatchManager.Holds (k : κ) : Prop :=
  (s.slots k).state ≠ .free ∧ (s.slots k).state ≠ .reserved

/-- The slot is counted in `outstanding_count_`. -/
def BatchManager.Counted (k : κ) : Prop :=
  (s.Holds k ∧ ∀ x, (s.pcs x).drops ≠ some k) ∨ ∃ x, (s.pcs x).counts = some k

/-- An ordinary batch with this id was accepted for this phase. -/
def BatchManager.Ordinary (batchId phaseIndex : ℕ) : Prop :=
  ∃ b ∈ s.accepted, b.batchId = batchId ∧ b.request.phaseIndex = phaseIndex ∧
    b.request.rateIdentity = none

/-- What the graph hears of a batch. -/
def DeviceBatch.news (b : DeviceBatch) : ℕ × ℕ :=
  (b.batchId, b.request.phaseIndex)

/-- The ledger of the batches.  They are reported after their slot was freed. -/
def BatchManager.ledger : Ledger κ DeviceBatch ℕ (BatchParty τ) where
  entry k := (s.slots k).batch
  pends k := ∃ x, (s.pcs x).fills = some k
  holds := s.Holds
  told _ := False
  owes x := (s.pcs x).owes.map fun debt => (debt.1, debt.2.1)
  next := s.nextBatchId
  accepted := s.accepted
  freed := s.freed
  heard := s.completions

/-- The marks in the slots and what the parties have captured.  An ordinary batch can be quarantined,
through a look at a batch that was in its slot before; its slot is never freed then. -/
structure Marking : Prop where
  kind : ∀ k, s.ledger.Numbered k →
    (s.slots k).rateOwned = (s.slots k).batch.request.rateIdentity.isSome
  simulated : ∀ k, s.ledger.Numbered k → (s.slots k).batch.request.simulated = true →
    (s.slots k).batch.request.rateIdentity.isSome = true
  clean : ∀ x k, (s.pcs x).fills = some k → (s.slots k).graphReleased = false
  unreleased : ∀ k, s.Holds k → (s.slots k).rateOwned = false →
    (s.slots k).graphReleased = false ∨ (s.slots k).state = .rateQuarantined ∨
      ∃ x phaseIndex release, (s.pcs x).retires = some (k, phaseIndex, release)
  retires : ∀ x k phaseIndex release, (s.pcs x).retires = some (k, phaseIndex, release) →
    release = true ∧ phaseIndex = (s.slots k).batch.request.phaseIndex ∧
      (s.slots k).rateOwned = false
  releases : ∀ x k, (s.pcs x).releases = some k → (s.slots k).rateOwned = true
  owes : ∀ x debt, (s.pcs x).owes = some debt → debt.2.2 = true

/-- The ledger is sound, ordinary batches being reported, and the counter is the number of counted
slots. -/
structure BatchBooks : Prop where
  marking : Marking s
  ledger : s.ledger.Sound DeviceBatch.news fun b => b.request.rateIdentity = none
  counted : {k | s.Counted k}.encard = s.outstanding

end Books

section Frames

variable {s s' : BatchManager κ τ}

theorem Exclusive.not_holds_of_fills (h : Exclusive s) {x : BatchParty τ} {k : κ}
    (fills : (s.pcs x).fills = some k) : ¬s.Holds k :=
  fun holds => holds.2 (h.state x k _ (BatchPc.owns_of_fills fills)).reserved

theorem Exclusive.holds_of_owned (h : Exclusive s) {x : BatchParty τ} {k : κ}
    (owns : (s.pcs x).owns = some (k, .owned)) : s.Holds k := by
  rcases h.state x k _ owns with state | ⟨state, -⟩ <;> simp [Holds, state]

/-- What a step outside the delivery may do to a slot. -/
structure SlotKept (a b : BatchSlot) : Prop where
  batch : b.batch = a.batch
  rateOwned : b.rateOwned = a.rateOwned
  graphReleased : b.graphReleased = a.graphReleased ∨
    (a.rateOwned = true ∨ b.state = .rateQuarantined) ∧ a.state ≠ .free ∧ a.state ≠ .reserved
  quarantined : a.state = .rateQuarantined → b.state = .rateQuarantined
  holds : (b.state ≠ .free ∧ b.state ≠ .reserved) ↔ (a.state ≠ .free ∧ a.state ≠ .reserved)

theorem SlotKept.rfl {a : BatchSlot} : SlotKept a a :=
  ⟨by rfl, by rfl, .inl (by rfl), id, Iff.rfl⟩

/-- The lists and the next id are the same as before. -/
structure DeliverySame (s s' : BatchManager κ τ) : Prop where
  accepted : s'.accepted = s.accepted
  freed : s'.freed = s.freed
  completions : s'.completions = s.completions
  next : s'.nextBatchId = s.nextBatchId

theorem Marking.same (h : Marking s) (exclusive : Exclusive s)
    (slots : ∀ k, SlotKept (s.slots k) (s'.slots k))
    (fills : ∀ x, (s'.pcs x).fills = (s.pcs x).fills)
    (retires : ∀ x, (s'.pcs x).retires = (s.pcs x).retires)
    (releases : ∀ x k, (s'.pcs x).releases = some k →
      (s.pcs x).releases = some k ∨ (s.slots k).rateOwned = true)
    (owes : ∀ x debt, (s'.pcs x).owes = some debt → (s.pcs x).owes = some debt) : Marking s' := by
  have numbered (k : κ) : s'.ledger.Numbered k → s.ledger.Numbered k :=
    Or.imp (slots k).holds.mp fun ⟨x, filled⟩ => ⟨x, fills x ▸ filled⟩
  refine ⟨fun k n => ?_, fun k n => ?_, fun x k filled => ?_, fun k held rate => ?_,
    fun x k ph rel retired => ?_, fun x k released => ?_,
    fun x debt owed => h.owes x debt (owes x debt owed)⟩
  · rw [(slots k).batch, (slots k).rateOwned]
    exact h.kind k (numbered k n)
  · rw [(slots k).batch]
    exact h.simulated k (numbered k n)
  · rw [fills] at filled
    rcases (slots k).graphReleased with same | ⟨-, holds⟩
    · exact same.trans (h.clean x k filled)
    · exact absurd holds (exclusive.not_holds_of_fills filled)
  · rw [(slots k).rateOwned] at rate
    rcases (slots k).graphReleased with same | ⟨other | quarantined, -⟩
    · rcases h.unreleased k ((slots k).holds.mp held) rate with clean | state | ⟨x, ph, rel, retired⟩
      · exact .inl (same.trans clean)
      · exact .inr (.inl ((slots k).quarantined state))
      · exact .inr (.inr ⟨x, ph, rel, (retires x).trans retired⟩)
    · rw [rate] at other
      cases other
    · exact .inr (.inl quarantined)
  · rw [retires] at retired
    rw [(slots k).batch, (slots k).rateOwned]
    exact h.retires x k ph rel retired
  · rw [(slots k).rateOwned]
    exact (releases x k released).elim (h.releases x k) id

section

variable (h : BatchBooks s) (holds : ∀ k, s'.Holds k ↔ s.Holds k)
include h holds

theorem BatchBooks.counted_of (counts : ∀ x, (s'.pcs x).counts = (s.pcs x).counts)
    (drops : ∀ x, (s'.pcs x).drops = (s.pcs x).drops) :
    {k | s'.Counted k}.encard = s.outstanding := by
  simp only [Counted, holds, counts, drops]
  exact h.counted

/-- Nothing is accepted, freed or reported, and the same slots hold the same batches. -/
theorem BatchBooks.same (marking : Marking s') (fills : ∀ x, (s'.pcs x).fills = (s.pcs x).fills)
    (batch : ∀ k, (s'.slots k).batch = (s.slots k).batch)
    (owes : ∀ x, (s'.pcs x).owes = (s.pcs x).owes) (lists : DeliverySame s s')
    (counted : {k | s'.Counted k}.encard = s'.outstanding) : BatchBooks s' :=
  ⟨marking, h.ledger.agrees
    { entry := fun k _ => batch k, pends := fun _ ⟨x, filled⟩ => ⟨x, fills x ▸ filled⟩, holds := holds
      told := fun _ _ => .rfl, owes := fun x => congrArg (Option.map _) (owes x)
      next := lists.next, accepted := lists.accepted, freed := lists.freed
      heard := lists.completions }, counted⟩

end

variable [DecidableEq τ]

/-- A party moves on without a change to the books. -/
theorem BatchBooks.walk (h : BatchBooks s) (exclusive : Exclusive s) (x : BatchParty τ)
    (pc : BatchPc κ) (pcs : s'.pcs = update s.pcs x pc)
    (roles : pc.roles = (s.pcs x).roles) (slots : ∀ k, SlotKept (s.slots k) (s'.slots k))
    (lists : DeliverySame s s') (outstanding : s'.outstanding = s.outstanding) : BatchBooks s' := by
  have same := role_same BatchPc.roles pcs roles
  simp only [BatchPc.roles, Prod.mk.injEq] at same
  have holds (k : κ) : s'.Holds k ↔ s.Holds k := (slots k).holds
  have marking : Marking s' :=
    h.marking.same exclusive slots (fun y => (same y).1) (fun y => (same y).2.2.2.1)
      (fun y k released => .inl ((same y).2.2.2.2.1 ▸ released))
      fun y debt owed => (same y).2.2.2.2.2 ▸ owed
  refine h.same holds marking (fun y => (same y).1) (fun k => (slots k).batch)
    (fun y => (same y).2.2.2.2.2) lists ?_
  rw [outstanding]
  exact h.counted_of holds (fun y => (same y).2.1) fun y => (same y).2.2.1

end Frames

section Changes

variable {s s' : BatchManager κ τ} {x : BatchParty τ} {k : κ} {pc : BatchPc κ}

theorem Exclusive.other (h : Exclusive s) {y : BatchParty τ} {state state' : BatchState}
    (mine : (s.pcs x).owns = some (k, state)) (ne : y ≠ x) :
    (s.pcs y).owns ≠ some (k, state') :=
  fun owns => ne (h.unique y x k state' state owns mine)

variable [DecidableEq τ]

/-- After a move of the owner of a slot a role for that slot is the owner's, and a role for another
slot was played before. -/
theorem Exclusive.role_moved {ρ : Type*} {role : BatchPc κ → ρ} {r : ρ} {y : BatchParty τ} {j : κ}
    {state state' : BatchState} (h : Exclusive s) (pcs : s'.pcs = update s.pcs x pc)
    (own : (s.pcs x).owns = some (k, state)) (after : pc.OwnsAtMost k)
    (owns : ∀ {pc : BatchPc κ}, role pc = r → pc.owns = some (j, state'))
    (plays : role (s'.pcs y) = r) : j = k ∧ role pc = r ∨ j ≠ k ∧ role (s.pcs y) = r := by
  rcases role_cases pcs plays with ⟨-, new⟩ | ⟨ne, old⟩
  · exact .inl ⟨after.eq_of_owns (owns new), new⟩
  · refine .inr ⟨?_, old⟩
    rintro rfl
    exact h.other own ne (owns old)

/-- Whether a slot is counted is up to its owner. -/
theorem Exclusive.counted_iff (h : Exclusive s) {state : BatchState}
    (pcs : s'.pcs = update s.pcs x pc) (own : (s.pcs x).owns = some (k, state)) :
    s'.Counted k ↔ (s'.Holds k ∧ pc.drops ≠ some k) ∨ pc.counts = some k := by
  refine or_congr (and_congr_right fun _ => role_nobody pcs fun y ne drops => ?_)
    (role_somebody pcs fun y ne counts => ?_)
  · exact h.other own ne (BatchPc.owns_of_drops drops)
  · exact h.other own ne (BatchPc.owns_of_fills (BatchPc.fills_of_counts counts))

/-- The owner of one slot changes nothing for the count of another. -/
theorem BatchManager.counted_elsewhere {j : κ} (pcs : s'.pcs = update s.pcs x pc)
    (before : (s.pcs x).OwnsAtMost k) (after : pc.OwnsAtMost k) (ne : j ≠ k)
    (holds : s'.Holds j ↔ s.Holds j) :
    s'.Counted j ↔ s.Counted j := by
  refine or_congr (and_congr holds (forall_congr' fun y => not_congr ⟨fun drops => ?_, ?_⟩))
    (exists_congr fun y => ⟨fun counts => ?_, ?_⟩)
  · exact (role_before pcs (after.drops_ne ne) drops).2
  · exact role_after pcs (before.drops_ne ne)
  · exact (role_before pcs (after.counts_ne ne) counts).2
  · exact role_after pcs (before.counts_ne ne)

variable [DecidableEq κ]

/-- The owner of a slot changes it.  Only this slot's marks and the owner's own roles matter. -/
theorem Marking.change {slot : BatchSlot} {state : BatchState} (h : Marking s)
    (exclusive : Exclusive s) (own : (s.pcs x).owns = some (k, state))
    (pcs : s'.pcs = update s.pcs x pc) (after : pc.OwnsAtMost k)
    (slots : s'.slots = update s.slots k slot)
    (kind : s'.ledger.Numbered k → slot.rateOwned = slot.batch.request.rateIdentity.isSome ∧
      (slot.batch.request.simulated = true → slot.batch.request.rateIdentity.isSome = true))
    (clean : pc.fills = some k → slot.graphReleased = false)
    (unreleased : slot.state ≠ .free → slot.state ≠ .reserved → slot.rateOwned = false →
      slot.graphReleased = false ∨ ∃ phaseIndex release, pc.retires = some (k, phaseIndex, release))
    (retires : ∀ phaseIndex release, pc.retires = some (k, phaseIndex, release) →
      release = true ∧ phaseIndex = slot.batch.request.phaseIndex ∧ slot.rateOwned = false)
    (releases : pc.releases = some k → slot.rateOwned = true)
    (owes : ∀ debt, pc.owes = some debt → debt.2.2 = true) : Marking s' := by
  have at_k : s'.slots k = slot := update_at slots
  have elsewhere (j : κ) (ne : j ≠ k) : s'.slots j = s.slots j := update_off slots ne
  have numbered (j : κ) (ne : j ≠ k) : s'.ledger.Numbered j → s.ledger.Numbered j := by
    rintro (held | ⟨y, filled⟩)
    · simp only [ledger, Holds, elsewhere j ne] at held
      exact .inl held
    · rcases exclusive.role_moved pcs own after BatchPc.owns_of_fills filled with
        ⟨same, -⟩ | ⟨-, old⟩
      · exact absurd same ne
      · exact .inr ⟨y, old⟩
  refine ⟨fun j n => ?_, fun j n => ?_, fun y j filled => ?_, fun j held rate => ?_,
    fun y j ph rel retired => ?_, fun y j released => ?_, fun y debt owed => ?_⟩
  · by_cases same : j = k
    · subst same
      rw [at_k]
      exact (kind n).1
    · rw [elsewhere j same]
      exact h.kind j (numbered j same n)
  · by_cases same : j = k
    · subst same
      rw [at_k]
      exact (kind n).2
    · rw [elsewhere j same]
      exact h.simulated j (numbered j same n)
  · rcases exclusive.role_moved pcs own after BatchPc.owns_of_fills filled with
      ⟨rfl, new⟩ | ⟨ne, old⟩
    · rw [at_k, clean new]
    · rw [elsewhere j ne, h.clean y j old]
  · by_cases same : j = k
    · subst same
      rw [Holds, at_k] at held
      rw [at_k] at rate ⊢
      refine (unreleased held.1 held.2 rate).imp_right fun ⟨ph, rel, retired⟩ => .inr ?_
      exact ⟨x, ph, rel, by rw [update_at pcs, retired]⟩
    · rw [Holds, elsewhere j same] at held
      rw [elsewhere j same] at rate ⊢
      refine (h.unreleased j held rate).imp_right (Or.imp_right fun ⟨y, ph, rel, retired⟩ => ?_)
      refine ⟨y, ph, rel, ?_⟩
      refine role_after pcs (fun mine => same ?_) retired
      have owns := own.symm.trans (BatchPc.owns_of_retires mine)
      exact (Prod.mk.inj (Option.some.inj owns)).1.symm
  · rcases exclusive.role_moved pcs own after BatchPc.owns_of_retires retired with
      ⟨rfl, new⟩ | ⟨ne, old⟩
    · rw [at_k]
      exact retires ph rel new
    · rw [elsewhere j ne]
      exact h.retires y j ph rel old
  · rcases exclusive.role_moved pcs own after BatchPc.owns_of_releases released with
      ⟨rfl, new⟩ | ⟨ne, old⟩
    · rw [at_k, releases new]
    · rw [elsewhere j ne, h.releases y j old]
  · rcases role_cases pcs owed with ⟨-, new⟩ | ⟨-, old⟩
    · exact owes debt new
    · exact h.owes y debt old

section

variable (h : BatchBooks s) (exclusive : Exclusive s)
include h exclusive

omit [DecidableEq κ] in
/-- The counter follows a party that changes what is counted, or takes up a slot to release. -/
theorem BatchBooks.recount {outstanding : ℕ} {held : List (BatchTicket κ)}
    (fills : pc.fills = (s.pcs x).fills) (retires : pc.retires = (s.pcs x).retires)
    (releases : ∀ y j, ((s.setPc x pc).pcs y).releases = some j →
      (s.pcs y).releases = some j ∨ (s.slots j).rateOwned = true) (owes : pc.owes = (s.pcs x).owes)
    (counted : {k | { s.setPc x pc with outstanding, held }.Counted k}.encard = outstanding) :
    BatchBooks { s.setPc x pc with outstanding, held } := by
  have pcs : (s.setPc x pc).pcs = update s.pcs x pc := rfl
  have fills' := role_same BatchPc.fills pcs fills
  have owes' := role_same BatchPc.owes pcs owes
  refine h.same (fun _ => .rfl) ?_ fills' (fun _ => rfl) owes' ⟨rfl, rfl, rfl, rfl⟩ counted
  exact h.marking.same exclusive (fun _ => .rfl) fills' (role_same _ pcs retires) releases
    fun y debt owed => owes' y ▸ owed

/-- `submit_batch` fills the slot that it has reserved. -/
theorem BatchBooks.fill {request : BatchRequest} {skipped : ℕ} (place : s.pcs x = .reserved k)
    (admitted : s.admits request = true) :
    let s' := (s.fill k request skipped).setPc x (.filled k)
    BatchBooks s' := by
  intro s'
  have pcs : s'.pcs = update s.pcs x (.filled k) := rfl
  have slots : s'.slots = update s.slots k (s.fillSlot k request skipped) := rfl
  have own : (s.pcs x).owns = some (k, .reserved) := place ▸ rfl
  have reserved : (s.slots k).state = .reserved := (exclusive.state _ _ _ own).reserved
  have holds (j : κ) : s'.Holds j ↔ s.Holds j := by
    by_cases same : j = k
    · subst same
      simp only [Holds, update_at slots]
      exact .rfl
    · simp only [Holds, update_off slots same]
  have unnumbered : ¬s.ledger.Numbered k := by
    rintro (held | ⟨y, filled⟩)
    · exact held.2 reserved
    · obtain rfl := exclusive.unique y x k _ _ (BatchPc.owns_of_fills filled) own
      rw [place] at filled
      cases filled
  refine ⟨h.marking.change exclusive own pcs (.inr ⟨_, rfl⟩) slots (fun _ => ⟨rfl, ?_⟩) (fun _ => rfl)
      (fun _ accepted => absurd reserved accepted) nofun nofun nofun,
    (h.ledger.fill (b := (s.fillSlot k request skipped).batch) unnumbered
      (Nat.le_add_right s.nextBatchId skipped)).agrees
      { entry := fun j _ => ?_, pends := ?_, holds := holds, told := fun _ _ => .rfl
        owes := fun y => congrArg (Option.map _) (role_same BatchPc.owes pcs (place ▸ rfl) y) },
    h.counted_of holds (role_same _ pcs (place ▸ rfl)) (role_same _ pcs (place ▸ rfl))⟩
  · simp only [admits, decide_eq_true_eq] at admitted
    exact admitted.2.2.2.2.2
  · by_cases same : j = k
    · subst same
      simp [BatchManager.ledger, Ledger.fill, slots]
    · simp [BatchManager.ledger, Ledger.fill, slots, same]
  · rintro j ⟨y, filled⟩
    rcases role_cases pcs filled with ⟨-, new⟩ | ⟨-, old⟩
    · exact .inl (Option.some.inj new).symm
    · exact .inr ⟨y, old⟩

/-- `submit_batch` counts the batch. -/
theorem BatchBooks.count (place : s.pcs x = .filled k) :
    BatchBooks { s.setPc x (.counted k) with outstanding := s.outstanding + 1 } := by
  have pcs : (s.setPc x (.counted k)).pcs = update s.pcs x (.counted k) := rfl
  have own : (s.pcs x).owns = some (k, .reserved) := place ▸ rfl
  have new : k ∉ {j | s.Counted j} := by
    rw [Set.mem_ofPred_eq, exclusive.counted_iff (update_eq_self x s.pcs).symm own, place]
    rintro (⟨held, -⟩ | counts)
    · exact exclusive.not_holds_of_fills (x := x) (place ▸ rfl) held
    · cases counts
  refine h.recount exclusive (place ▸ rfl) (place ▸ rfl)
    (fun y j released => .inl (role_before pcs (by nofun) released).2) (place ▸ rfl) ?_
  rw [show {j | _} = insert k {j | s.Counted j} from ?_, Set.encard_insert_of_notMem new, h.counted]
  · rfl
  · ext j
    by_cases same : j = k
    · subst same
      exact .trans (exclusive.counted_iff pcs own) ⟨fun _ => .inl rfl, fun _ => .inr rfl⟩
    · exact (counted_elsewhere pcs (.inr ⟨_, own⟩) (.inr ⟨_, rfl⟩) same .rfl).trans
        (or_iff_right same).symm

/-- `submit_batch` publishes the batch: it is accepted. -/
theorem BatchBooks.publish (place : s.pcs x = .counted k) :
    let s' : BatchManager κ τ := { (s.setState k .queued).setPc x .unlocking with
      accepted := s.accepted ++ [(s.slots k).batch] }
    BatchBooks s' := by
  intro s'
  have pcs : s'.pcs = update s.pcs x .unlocking := rfl
  have slots : s'.slots = update s.slots k { s.slots k with state := .queued } := rfl
  have filled : (s.pcs x).fills = some k := place ▸ rfl
  have own := BatchPc.owns_of_fills filled
  have holds (j : κ) : s'.Holds j ↔ s.Holds j ∨ j = k := by
    by_cases same : j = k
    · subst same
      simp [Holds, update_at slots]
    · simp only [Holds, update_off slots same, same, or_false]
  refine ⟨h.marking.change exclusive own pcs (.inl rfl) slots (fun _ => ?_) nofun
      (fun _ _ _ => .inl (h.marking.clean x k filled)) nofun nofun nofun,
    (h.ledger.accept (k := k) ⟨x, filled⟩ id).agrees
      { entry := fun j _ => ?_, pends := ?_, holds := holds, told := fun _ _ => .rfl
        owes := fun y => congrArg (Option.map _) (role_same BatchPc.owes pcs (place ▸ rfl) y) },
    (congrArg Set.encard (Set.ext fun j => ?_)).trans h.counted⟩
  · exact ⟨h.marking.kind k (.inr ⟨x, filled⟩), h.marking.simulated k (.inr ⟨x, filled⟩)⟩
  · by_cases same : j = k
    · subst same
      simp [BatchManager.ledger, Ledger.accept, slots]
    · simp [BatchManager.ledger, Ledger.accept, slots, same]
  · rintro j ⟨y, filled'⟩
    obtain ⟨ne, old⟩ := role_before pcs (by nofun) filled'
    refine ⟨⟨y, old⟩, ?_⟩
    rintro rfl
    exact exclusive.other own ne (BatchPc.owns_of_fills old)
  · by_cases same : j = k
    · subst same
      rw [Set.mem_ofPred_eq, Set.mem_ofPred_eq, exclusive.counted_iff pcs own,
        exclusive.counted_iff (update_eq_self x s.pcs).symm own, place]
      exact ⟨fun _ => .inr rfl, fun _ => .inl ⟨(holds j).mpr (.inr rfl), by rintro ⟨⟩⟩⟩
    · exact counted_elsewhere pcs (.inr ⟨_, own⟩) (.inl rfl) same
        ((holds j).trans (or_iff_left same))

/-- `finish_batch_slot` turns to `retire_device_batch_slot`, which captures the phase. -/
theorem BatchBooks.settle {status : Status}
    (place : s.pcs x = .settling k status) (ordinary : (s.slots k).rateOwned = false) :
    let s' := (s.setSlot k { s.slots k with graphReleased := true }).setPc x (.retiring k
      (s.slots k).batch.request.phaseIndex status (!(s.slots k).graphReleased))
    BatchBooks s' := by
  intro s'
  have pcs : s'.pcs = update s.pcs x (.retiring k (s.slots k).batch.request.phaseIndex status
    (!(s.slots k).graphReleased)) := rfl
  have slots : s'.slots = update s.slots k { s.slots k with graphReleased := true } := rfl
  have own : (s.pcs x).owns = some (k, .owned) := place ▸ rfl
  have held := exclusive.holds_of_owned own
  have clean : (s.slots k).graphReleased = false := by
    rcases h.marking.unreleased k held ordinary with clean | state | ⟨y, ph, rel, retired⟩
    · exact clean
    · have serves := exclusive.state x k _ own
      simp [BatchState.Serves, state] at serves
    · obtain rfl := exclusive.unique y x k _ _ (BatchPc.owns_of_retires retired) own
      rw [place] at retired
      cases retired
  rw [clean] at pcs
  have kept (j : κ) : (s'.slots j).batch = (s.slots j).batch ∧
      (s'.slots j).state = (s.slots j).state := by
    by_cases same : j = k
    · subst same
      rw [update_at slots]
      exact ⟨rfl, rfl⟩
    · rw [update_off slots same]
      exact ⟨rfl, rfl⟩
  have holds (j : κ) : s'.Holds j ↔ s.Holds j := by simp only [Holds, (kept j).2]
  have marking : Marking s' := by
    refine h.marking.change exclusive own pcs (.inr ⟨_, rfl⟩) slots (fun _ => ?_) nofun
      (fun _ _ _ => .inr ⟨_, _, rfl⟩) (fun ph rel new => ?_) nofun nofun
    · exact ⟨h.marking.kind k (.inl held), h.marking.simulated k (.inl held)⟩
    · cases new
      exact ⟨rfl, rfl, ordinary⟩
  exact h.same holds marking (role_same _ pcs (place ▸ rfl)) (fun j => (kept j).1)
    (role_same _ pcs (place ▸ rfl)) ⟨rfl, rfl, rfl, rfl⟩
    (h.counted_of holds (role_same _ pcs (place ▸ rfl)) (role_same _ pcs (place ▸ rfl)))

/-- The owner of a slot takes it out of the count before it frees it. -/
theorem BatchBooks.drop {old : BatchPc κ}
    (place : s.pcs x = old) (own : old.owns = some (k, .owned)) (undropped : old.drops = none)
    (drops : pc.drops = some k) (counts : pc.counts = none) (fills : pc.fills = old.fills)
    (retires : pc.retires = old.retires) (releases : pc.releases = old.releases)
    (owes : pc.owes = old.owes) :
    BatchBooks { s.setPc x pc with outstanding := s.outstanding - 1 } := by
  subst place
  have pcs : (s.setPc x pc).pcs = update s.pcs x pc := rfl
  have releases' := role_same BatchPc.releases pcs releases
  have member : k ∈ {j | s.Counted j} := by
    rw [Set.mem_ofPred_eq, exclusive.counted_iff (update_eq_self x s.pcs).symm own, undropped]
    exact .inl ⟨exclusive.holds_of_owned own, nofun⟩
  refine h.recount exclusive fills retires (fun y j released => .inl (releases' y ▸ released)) owes ?_
  rw [show {j | _} = {j | s.Counted j} \ {k} from ?_, Set.encard_sdiff_singleton_of_mem member,
    h.counted]
  · rfl
  · ext j
    by_cases same : j = k
    · subst same
      refine .trans (exclusive.counted_iff pcs own) ?_
      rw [drops, counts]
      exact ⟨fun now => absurd rfl (now.resolve_right nofun).2, fun both => absurd rfl both.2⟩
    · exact (counted_elsewhere pcs (.inr ⟨_, own⟩) (.inr ⟨_, BatchPc.owns_of_drops drops⟩) same
        .rfl).trans (and_iff_left same).symm

/-- The owner of a slot frees it.  Of an ordinary batch it still owes the graph the news, under the
phase that it has captured. -/
theorem BatchBooks.vacate {old : BatchPc κ}
    {slot : BatchSlot} (place : s.pcs x = old) (dropped : old.drops = some k)
    (before : old.fills = none ∧ old.counts = none ∧ old.owes = none)
    (free : slot.state = .free)
    (after : pc.fills = none ∧ pc.counts = none ∧ pc.owns = none ∧ pc.retires = none ∧
      pc.releases = none) (debt : pc.owes = none ∧ (s.slots k).rateOwned = true ∨
      pc.owes = some ((s.slots k).batch.batchId, (s.slots k).batch.request.phaseIndex, true) ∧
        (s.slots k).rateOwned = false) :
    let s' : BatchManager κ τ := { (s.setSlot k slot).setPc x pc with
      freed := s.freed ++ [(s.slots k).batch.batchId] }
    BatchBooks s' := by
  intro s'
  have pcs : s'.pcs = update s.pcs x pc := rfl
  have slots : s'.slots = update s.slots k slot := rfl
  subst place
  have own := BatchPc.owns_of_drops dropped
  have held := exclusive.holds_of_owned own
  have holds (j : κ) : s'.Holds j ↔ s.Holds j ∧ j ≠ k := by
    by_cases same : j = k
    · subst same
      simp [Holds, update_at slots, free]
    · simp only [Holds, update_off slots same, same, not_false_eq_true, ne_eq, and_true]
  have fills := role_same BatchPc.fills pcs (after.1.trans before.1.symm)
  have numbered_ne (j : κ) : s'.ledger.Numbered j → j ≠ k := by
    rintro (now | ⟨y, filled⟩)
    · exact ((holds j).mp now).2
    · rintro rfl
      exact exclusive.not_holds_of_fills (fills y ▸ filled) held
  have kind := h.marking.kind k (.inl held)
  have owes (y : BatchParty τ) : s'.ledger.owes y =
      update s.ledger.owes x (pc.owes.map fun debt => (debt.1, debt.2.1)) y := by
    by_cases same : y = x
    · subst same
      simp [BatchManager.ledger, pcs]
    · simp [BatchManager.ledger, pcs, same]
  refine ⟨h.marking.change exclusive own pcs (.inl after.2.2.1) slots
      (fun n => absurd rfl (numbered_ne k n)) (fun new => ?_) (fun taken => absurd free taken)
      (fun ph rel new => ?_) (fun new => ?_) (fun debt' new => ?_),
    (h.ledger.free (x := x) (k := k) _ held (by simp [BatchManager.ledger, before.2.2]) ?_).agrees
      { entry := fun j n => ?_, pends := fun j ⟨y, filled⟩ => ⟨y, fills y ▸ filled⟩, holds := holds
        told := fun _ _ => .rfl, owes := owes },
    (congrArg Set.encard (Set.ext fun j => ?_)).trans h.counted⟩
  · exact absurd (after.1.symm.trans new) nofun
  · exact absurd (after.2.2.2.1.symm.trans new) nofun
  · exact absurd (after.2.2.2.2.symm.trans new) nofun
  · rcases debt with ⟨none, -⟩ | ⟨some, -⟩
    · rw [none] at new
      cases new
    · obtain rfl := Option.some.inj (some.symm.trans new)
      rfl
  · rcases debt with ⟨owed, rate⟩ | ⟨owed, rate⟩ <;> rw [owed] <;> rw [rate] at kind
    · refine .inl ⟨rfl, .inr fun ordinary => ?_⟩
      simp only [BatchManager.ledger] at ordinary
      rw [ordinary] at kind
      cases kind
    · exact .inr ⟨rfl, id, Option.not_isSome_iff_eq_none.mp (ne_true_of_eq_false kind.symm)⟩
  · exact congrArg BatchSlot.batch (update_off slots (numbered_ne j n))
  · by_cases same : j = k
    · subst same
      rw [Set.mem_ofPred_eq, Set.mem_ofPred_eq, exclusive.counted_iff pcs own, exclusive.counted_iff
        (update_eq_self x s.pcs).symm own, dropped, before.2.1, after.2.1]
      exact ⟨fun now => absurd rfl ((holds j).mp (now.resolve_right nofun).1).2,
        fun old => absurd rfl (old.resolve_right nofun).2⟩
    · exact counted_elsewhere pcs (.inr ⟨_, own⟩) (.inl after.2.2.1) same
        ((holds j).trans (and_iff_left same))

omit [DecidableEq κ] in
/-- The graph is told. -/
theorem BatchBooks.complete {batchId phaseIndex : ℕ} {status : Status} {release : Bool}
    (place : s.pcs x = .completing batchId phaseIndex status release) :
    let s' : BatchManager κ τ := { s.setPc x .idle with
      completions := if release then s.completions ++ [(batchId, phaseIndex)] else s.completions }
    BatchBooks s' := by
  intro s'
  have pcs : s'.pcs = update s.pcs x .idle := rfl
  have owed : (s.pcs x).owes = some (batchId, phaseIndex, release) := place ▸ rfl
  obtain rfl : release = true := h.marking.owes x _ owed
  have fills := role_same BatchPc.fills pcs (place ▸ rfl)
  refine ⟨h.marking.same exclusive (fun _ => .rfl) fills (role_same _ pcs (place ▸ rfl))
      (fun y j released => .inl (role_before pcs (by nofun) released).2)
      fun y debt still => (role_before pcs (by nofun) still).2,
    (h.ledger.pay (x := x) (e := (batchId, phaseIndex)) (by simp [BatchManager.ledger, owed])).agrees
      { entry := fun _ _ => rfl, pends := fun j ⟨y, filled⟩ => ⟨y, fills y ▸ filled⟩
        holds := fun _ => .rfl, told := fun _ _ => .rfl, owes := fun y => ?_ },
    h.counted_of (fun _ => .rfl) (role_same _ pcs (place ▸ rfl)) (role_same _ pcs (place ▸ rfl))⟩
  by_cases same : y = x
  · subst same
    simp [BatchManager.ledger, Ledger.pay, pcs, BatchPc.owes]
  · simp [BatchManager.ledger, Ledger.pay, pcs, same]

omit [DecidableEq κ] in
/-- `release_rate_batch` has found the slot of its ticket. -/
theorem BatchBooks.check {held : List (BatchTicket κ)} {ticket : BatchTicket κ} {state : BatchState}
    (place : s.pcs x = .releaseLoaded ticket state)
    (found : (s.slots ticket.slot).matches ticket = true) :
    BatchBooks { s.setPc x (.releasing ticket) with held := held } := by
  have rate : (s.slots ticket.slot).rateOwned = true := by
    simp only [BatchSlot.matches, Bool.and_eq_true] at found
    exact found.1.1
  have pcs : (s.setPc x (.releasing ticket)).pcs = update s.pcs x (.releasing ticket) := rfl
  refine h.recount exclusive (place ▸ rfl) (place ▸ rfl) (fun y j released => ?_) (place ▸ rfl)
    (h.counted_of (fun _ => .rfl) (role_same _ pcs (place ▸ rfl)) (role_same _ pcs (place ▸ rfl)))
  rcases role_cases pcs released with ⟨-, new⟩ | ⟨-, old⟩
  · cases new
    exact .inr rate
  · exact .inl old

end

end Changes

end RtRuntime
