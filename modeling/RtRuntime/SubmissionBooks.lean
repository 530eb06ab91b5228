import RtRuntime.DeviceSubmissions
import RtRuntime.Ledger

/-!
# The books of the single submissions

A slot that is neither free nor published is tended by one thread, the one that submits it or the one
that finishes it.  From this the books follow: an accepted submission is in one slot or was freed
once, the graph hears of it once, and the counter is the number of counted slots.

What the graph hears is the phase that the slot has when `complete_external` is called.  It is the
phase of the submission as long as nobody has acquired the slot since it was freed.
-/

namespace RtRuntime

open SubmissionManager

variable {κ π : Type*}

namespace SubmissionPc

/-- The slot that a thread tends. -/
def tends : SubmissionPc κ → Option κ
  | .acquired k _ | .filled k | .calling k | .rejected k | .accepted k | .counted k | .sawEarly k
  | .finalizing k _ | .freeing k _ | .failing k _ | .failedCounted k | .failedFreeing k => some k
  | _ => none

/-- The states that a tended slot can be in. -/
def Fits : SubmissionPc κ → SubmissionState → Prop
  | .calling _, state | .rejected _, state | .accepted _, state | .counted _, state =>
    state = .submitting ∨ state = .earlyReady
  | .sawEarly _, state => state = .earlyReady
  | _, state => state = .owned

/-- The slot of a submission that has its ticket and is not accepted. -/
def pends : SubmissionPc κ → Option κ
  | .filled k | .calling k | .rejected k => some k
  | _ => none

/-- The slot of an accepted submission that a thread tends. -/
def carries : SubmissionPc κ → Option κ
  | .accepted k | .counted k | .sawEarly k | .finalizing k _ | .freeing k _ | .failing k _
  | .failedCounted k | .failedFreeing k => some k
  | _ => none

/-- The slot of an accepted submission that is not counted yet or no longer. -/
def uncounted : SubmissionPc κ → Option κ
  | .accepted k | .freeing k _ | .failedFreeing k => some k
  | _ => none

/-- The slot of a submission that the graph has heard of. -/
def told : SubmissionPc κ → Option κ
  | .failedCounted k | .failedFreeing k => some k
  | _ => none

/-- The call of `complete_external` that is still to be made for a freed slot. -/
def owes : SubmissionPc κ → Option (κ × ℕ)
  | .completing k ticket _ => some (k, ticket)
  | _ => none

variable {pc : SubmissionPc κ} {k : κ}

theorem tends_of_pends (h : pc.pends = some k) :
    pc.tends = some k := by
  cases pc <;> simp_all [pends, tends]

theorem tends_of_carries (h : pc.carries = some k) :
    pc.tends = some k := by
  cases pc <;> simp_all [carries, tends]

theorem carries_of_told (h : pc.told = some k) :
    pc.carries = some k := by
  cases pc <;> simp_all [told, carries]

theorem carries_of_uncounted (h : pc.uncounted = some k) :
    pc.carries = some k := by
  cases pc <;> simp_all [uncounted, carries]

theorem calls_of_owes {ticket : ℕ} (h : pc.owes = some (k, ticket)) : pc.calls = some k := by
  cases pc <;> simp_all [owes, calls]

theorem uncounted_ne {j : κ} (h : pc.tends = some k ∨ pc.tends = none) (ne : j ≠ k) :
    pc.uncounted ≠ some j := by
  intro uncounted
  rw [tends_of_carries (carries_of_uncounted uncounted)] at h
  rcases h with same | none
  · exact ne (Option.some.inj same)
  · cases none

theorem Fits.tended {state : SubmissionState} (h : pc.Fits state) :
    state ≠ .free ∧ state ≠ .submitted := by
  cases state <;> cases pc <;> simp_all [Fits]

/-- Who tends a slot that is being submitted also fits one with an early completion. -/
theorem Fits.early (h : pc.Fits .submitting) : pc.Fits .earlyReady := by
  cases pc <;> simp_all [Fits]

end SubmissionPc

section Tended

/-- A slot that is neither free nor published is tended by one thread, and a slot whose completion
is still to be reported is free. -/
structure Tended (s : SubmissionManager κ π) : Prop where
  fits : ∀ x k, (s.pcs x).tends = some k → (s.pcs x).Fits (s.slots k).state
  unique : ∀ x y k, (s.pcs x).tends = some k → (s.pcs y).tends = some k → x = y
  tended : ∀ k, (s.slots k).state ≠ .free → (s.slots k).state ≠ .submitted →
    ∃ x, (s.pcs x).tends = some k
  owed : ∀ x k ticket, (s.pcs x).owes = some (k, ticket) → (s.slots k).state = .free

variable {s s' : SubmissionManager κ π}

theorem Tended.fits_at (h : Tended s) {x : π} {k : κ} {pc : SubmissionPc κ} (place : s.pcs x = pc)
    (tends : pc.tends = some k) : pc.Fits (s.slots k).state := by
  subst place
  exact h.fits x k tends

theorem Tended.fits_on (h : Tended s) {x : π} {pc old : SubmissionPc κ} (place : s.pcs x = old)
    (tends : pc.tends = old.tends) (fits : pc.Fits = old.Fits) (k : κ) (own : pc.tends = some k) :
    pc.Fits (s.slots k).state :=
  fits ▸ h.fits_at place (tends ▸ own)

variable [DecidableEq π]

/-- A thread moves on and tends the same slot.  Every slot keeps its state, or its submission
completes early. -/
theorem Tended.walk (h : Tended s) (x : π) (pc : SubmissionPc κ)
    (pcs : s'.pcs = Function.update s.pcs x pc)
    (states : ∀ k, (s'.slots k).state = (s.slots k).state ∨
      (s.slots k).state = .submitting ∧ (s'.slots k).state = .earlyReady)
    (tends : pc.tends = (s.pcs x).tends) (fits : ∀ k, pc.tends = some k → pc.Fits (s.slots k).state)
    (owes : pc.owes = none ∨ pc.owes = (s.pcs x).owes) : Tended s' := by
  have same := role_same SubmissionPc.tends pcs tends
  refine ⟨fun y k tending => ?_, fun y z k first second => ?_, fun k busy taken => ?_,
    fun y k ticket owed => ?_⟩
  · have before : (s'.pcs y).Fits (s.slots k).state := by
      rw [pcs] at tending ⊢
      by_cases moved : y = x
      · subst moved
        rw [Function.update_self] at tending ⊢
        exact fits k tending
      · rw [Function.update_of_ne moved] at tending ⊢
        exact h.fits y k tending
    rcases states k with kept | ⟨found, early⟩
    · rwa [kept]
    · rw [early]
      exact (found ▸ before).early
  · rw [same] at first second
    exact h.unique y z k first second
  · have before : (s.slots k).state ≠ .free ∧ (s.slots k).state ≠ .submitted := by
      rcases states k with kept | ⟨found, -⟩
      · exact ⟨kept ▸ busy, kept ▸ taken⟩
      · exact ⟨by simp [found], by simp [found]⟩
    obtain ⟨y, tending⟩ := h.tended k before.1 before.2
    exact ⟨y, (same y).trans tending⟩
  · have free : (s.slots k).state = .free := by
      rcases role_cases pcs owed with ⟨-, new⟩ | ⟨-, old⟩
      · rcases owes with none | kept
        · rw [none] at new
          cases new
        · exact h.owed x k ticket (kept ▸ new)
      · exact h.owed y k ticket old
    rcases states k with kept | ⟨found, -⟩
    · exact kept.trans free
    · cases found.symm.trans free

/-- A thread changes a slot that it tends or that nobody tends. -/
theorem Tended.change [DecidableEq κ] (h : Tended s) (x : π) (pc : SubmissionPc κ) (k : κ)
    (slot : SubmissionSlot) (pcs : s'.pcs = Function.update s.pcs x pc)
    (slots : s'.slots = Function.update s.slots k slot)
    (mine : (s.pcs x).tends = some k ∨
      (s.pcs x).tends = none ∧ ((s.slots k).state = .free ∨ (s.slots k).state = .submitted))
    (after : pc.tends = some k ∧ pc.Fits slot.state ∨
      pc.tends = none ∧ (slot.state = .free ∨ slot.state = .submitted))
    (owes : pc.owes = none ∨ slot.state = .free ∧ ∃ ticket, pc.owes = some (k, ticket))
    (unowed : ∀ y ticket, (s.pcs y).owes = some (k, ticket) → slot.state = .free) : Tended s' := by
  have at_k : s'.slots k = slot := update_at slots
  have elsewhere (j : κ) (ne : j ≠ k) : s'.slots j = s.slots j := update_off slots ne
  have others (y : π) (ne : y ≠ x) : (s.pcs y).tends ≠ some k := by
    intro tending
    rcases mine with own | ⟨-, rest⟩
    · exact ne (h.unique y x k tending own)
    · have fits := (h.fits y k tending).tended
      rcases rest with free | submitted
      · exact fits.1 free
      · exact fits.2 submitted
  have moved : s'.pcs x = pc := update_at pcs
  have stayed (y : π) (ne : y ≠ x) : s'.pcs y = s.pcs y := update_off pcs ne
  have at_x (j : κ) (tending : (s'.pcs x).tends = some j) : j = k ∧ pc.Fits slot.state := by
    rw [moved] at tending
    rcases after with ⟨own, fits⟩ | ⟨none, -⟩
    · rw [own] at tending
      exact ⟨(Option.some.inj tending).symm, fits⟩
    · rw [none] at tending
      cases tending
  refine ⟨fun y j tending => ?_, fun y z j first second => ?_, fun j busy taken => ?_,
    fun y j ticket owed => ?_⟩
  · by_cases same : y = x
    · subst same
      obtain ⟨rfl, fits⟩ := at_x j tending
      rw [moved, at_k]
      exact fits
    · rw [stayed y same] at tending ⊢
      have ne : j ≠ k := by
        rintro rfl
        exact others y same tending
      rw [elsewhere j ne]
      exact h.fits y j tending
  · by_cases same : y = x <;> by_cases same' : z = x
    · rw [same, same']
    · subst same
      obtain ⟨rfl, -⟩ := at_x j first
      rw [stayed z same'] at second
      exact absurd second (others z same')
    · subst same'
      obtain ⟨rfl, -⟩ := at_x j second
      rw [stayed y same] at first
      exact absurd first (others y same)
    · rw [stayed y same] at first
      rw [stayed z same'] at second
      exact h.unique y z j first second
  · by_cases same : j = k
    · subst same
      rw [at_k] at busy taken
      rcases after with ⟨own, -⟩ | ⟨-, free | submitted⟩
      · exact ⟨x, by rw [moved, own]⟩
      · exact absurd free busy
      · exact absurd submitted taken
    · rw [elsewhere j same] at busy taken
      obtain ⟨y, tending⟩ := h.tended j busy taken
      have ne : y ≠ x := by
        rintro rfl
        rcases mine with own | ⟨none, -⟩
        · rw [own] at tending
          exact same (Option.some.inj tending).symm
        · rw [none] at tending
          cases tending
      exact ⟨y, by rw [stayed y ne, tending]⟩
  · rcases role_cases pcs owed with ⟨-, new⟩ | ⟨-, old⟩
    · rcases owes with none | ⟨free, other, some⟩
      · rw [none] at new
        cases new
      · obtain ⟨rfl, -⟩ := Prod.mk.inj (Option.some.inj (some.symm.trans new))
        rw [at_k, free]
    · by_cases same : j = k
      · subst same
        rw [at_k, unowed y ticket old]
      · rw [elsewhere j same]
        exact h.owed y j ticket old

end Tended

section Books

variable (s : SubmissionManager κ π)

/-- The slot holds an accepted submission. -/
def SubmissionManager.Holds (k : κ) : Prop :=
  (s.slots k).state = .submitted ∨ ∃ x, (s.pcs x).carries = some k

/-- The slot is counted in `outstanding_count_`. -/
def SubmissionManager.Counted (k : κ) : Prop :=
  s.Holds k ∧ ∀ x, (s.pcs x).uncounted ≠ some k

/-- The ledger of the submissions: the numbers are the tickets and the news is the phase, which
`complete_external` reads from the slot. -/
def SubmissionManager.ledger : Ledger κ (ℕ × ℕ) ℕ π where
  entry k := ((s.slots k).ticket, (s.slots k).phaseIndex)
  pends k := ∃ x, (s.pcs x).pends = some k
  holds := s.Holds
  told k := ∃ x, (s.pcs x).told = some k
  owes x := (s.pcs x).owes.map fun debt => (debt.2, (s.slots debt.1).phaseIndex)
  next := s.nextTicket
  accepted := s.accepted
  freed := s.freed
  heard := s.completions

/-- The ledger is sound and the counter is the number of counted slots. -/
structure SubmissionBooks : Prop where
  tended : Tended s
  ledger : s.ledger.Sound id fun _ => True
  counted : {k | s.Counted k}.encard = s.outstanding

end Books

section Frames

variable {s s' : SubmissionManager κ π}

/-- The slots keep ticket and phase. -/
def SameLabels (s s' : SubmissionManager κ π) : Prop :=
  ∀ k, (s'.slots k).ticket = (s.slots k).ticket ∧ (s'.slots k).phaseIndex = (s.slots k).phaseIndex

theorem SameLabels.entry (labels : SameLabels s s') (k : κ) :
    s'.ledger.entry k = s.ledger.entry k :=
  Prod.ext (labels k).1 (labels k).2

theorem SubmissionManager.told_congr (told : ∀ x, (s'.pcs x).told = (s.pcs x).told) (k : κ) :
    s'.ledger.told k ↔ s.ledger.told k :=
  exists_congr fun x => by rw [told]

theorem SubmissionManager.owes_congr {x : π} (owes : (s'.pcs x).owes = (s.pcs x).owes)
    (phases : ∀ k ticket, (s.pcs x).owes = some (k, ticket) →
      (s'.slots k).phaseIndex = (s.slots k).phaseIndex) : s'.ledger.owes x = s.ledger.owes x := by
  simp only [ledger, owes]
  cases debt : (s.pcs x).owes with
  | none => rfl
  | some debt' => rw [Option.map_some, phases _ _ debt, Option.map_some]

theorem SubmissionBooks.counted_of (h : SubmissionBooks s)
    (same : ∀ k, s'.Counted k ↔ s.Counted k) : {k | s'.Counted k}.encard = s.outstanding :=
  (congrArg Set.encard (Set.ext same)).trans h.counted

theorem Tended.not_holds (h : Tended s) {x : π} {k : κ} (tends : (s.pcs x).tends = some k)
    (idle : (s.pcs x).carries = none) : ¬s.Holds k := by
  rintro (submitted | ⟨y, carries⟩)
  · exact (h.fits x k tends).tended.2 submitted
  · obtain rfl := h.unique y x k (SubmissionPc.tends_of_carries carries) tends
    rw [idle] at carries
    cases carries

variable [DecidableEq π]

section

variable (h : SubmissionBooks s) (tended : Tended s') {x : π} {pc : SubmissionPc κ}
  (pcs : s'.pcs = Function.update s.pcs x pc) (labels : SameLabels s s')
  (holds : ∀ k, s'.Holds k ↔ s.Holds k) (pends : pc.pends = none ∨ pc.pends = (s.pcs x).pends)
  (told : pc.told = (s.pcs x).told) (owes : pc.owes = (s.pcs x).owes)
include h tended pcs labels holds pends told owes

/-- A thread moves on without a change to the ledger. -/
theorem SubmissionBooks.same (counted : {k | s'.Counted k}.encard = s'.outstanding)
    (rest : s' = { s with slots := s'.slots, pcs := s'.pcs, outstanding := s'.outstanding }) :
    SubmissionBooks s' := by
  refine ⟨tended, h.ledger.agrees
    { entry := fun k _ => labels.entry k, pends := ?_, holds := holds
      told := fun k _ => told_congr (role_same _ pcs told) k
      owes := fun y => owes_congr (role_same _ pcs owes y) fun k _ _ => (labels k).2
      next := (congrArg nextTicket rest :)
      accepted := (congrArg accepted rest :)
      freed := (congrArg freed rest :)
      heard := (congrArg completions rest :) }, counted⟩
  rintro k ⟨y, pending⟩
  refine ⟨y, ?_⟩
  rcases role_cases pcs pending with ⟨rfl, new⟩ | ⟨-, old⟩
  · rcases pends with none | kept
    · rw [none] at new
      cases new
    · exact kept ▸ new
  · exact old

/-- A thread moves on without a change to the books. -/
theorem SubmissionBooks.walk (uncounted : pc.uncounted = (s.pcs x).uncounted)
    (rest : s' = { s with slots := s'.slots, pcs := s'.pcs }) : SubmissionBooks s' := by
  have outstanding : s'.outstanding = s.outstanding := (congrArg outstanding rest :)
  refine h.same tended pcs labels holds pends told owes ?_ (by rw [outstanding]; exact rest)
  rw [outstanding]
  refine h.counted_of fun k => ?_
  simp only [Counted, holds, role_same SubmissionPc.uncounted pcs uncounted]

end

end Frames

end RtRuntime
