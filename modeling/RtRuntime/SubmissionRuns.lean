import RtRuntime.SubmissionBooks

/-!
# The books of the single submissions are kept by every step
-/

namespace RtRuntime

open Function SubmissionPc SubmissionManager List

variable {κ π : Type*}

variable {s s' : SubmissionManager κ π} {pc : SubmissionPc κ} {x : π} {k : κ}

theorem SubmissionManager.Fresh.books (fresh : s.Fresh) : SubmissionBooks s := by
  have empty (k : κ) : ¬s.Holds k := by
    simp [Holds, fresh.slots, fresh.pcs, SubmissionPc.carries]
  refine ⟨⟨?_, ?_, fun k busy => absurd (fresh.slots k) busy, ?_⟩,
    .empty (fun k => ?_) empty (fun x => ?_) fresh.accepted fresh.freed fresh.completions, ?_⟩
  all_goals simp [fresh.pcs, fresh.outstanding, ledger, Counted, empty, SubmissionPc.tends,
    SubmissionPc.pends, SubmissionPc.owes]

theorem sameLabels_setState [DecidableEq κ] {slot : SubmissionSlot}
    (slots : s'.slots = update s.slots k slot) (ticket : slot.ticket = (s.slots k).ticket)
    (phase : slot.phaseIndex = (s.slots k).phaseIndex) : SameLabels s s' := by
  intro j
  by_cases same : j = k
  · subst same
    rw [update_at slots]
    exact ⟨ticket, phase⟩
  · rw [update_off slots same]
    exact ⟨rfl, rfl⟩

/-- A thread that only looks at slots. -/
def SubmissionPc.Looks (pc : SubmissionPc κ) : Prop :=
  pc.tends = none ∧ pc.owes = none

theorem SubmissionPc.Looks.roles (h : pc.Looks) :
    pc.pends = none ∧ pc.carries = none ∧ pc.uncounted = none ∧ pc.told = none := by
  obtain ⟨tends, -⟩ := h
  cases pc <;> simp_all [SubmissionPc.tends, SubmissionPc.pends, SubmissionPc.carries,
    SubmissionPc.uncounted, SubmissionPc.told]

variable [DecidableEq π]

/-- A thread that tends an accepted submission goes on to another point of its way. -/
theorem SubmissionManager.holds_walk (pcs : s'.pcs = update s.pcs x pc)
    (slots : s'.slots = s.slots) (carries : pc.carries = (s.pcs x).carries) (j : κ) :
    s'.Holds j ↔ s.Holds j := by
  simp only [Holds, slots, role_same SubmissionPc.carries pcs carries]

/-- Only the thread that moves takes up a debt or pays one. -/
theorem SameLabels.owes_update (labels : SameLabels s s') (pcs : s'.pcs = update s.pcs x pc) (y : π) :
    s'.ledger.owes y = update s.ledger.owes x (s'.ledger.owes x) y := by
  by_cases same : y = x
  · subst same
    exact (update_self y (s'.ledger.owes y) s.ledger.owes).symm
  · refine .trans (owes_congr ?_ fun k _ _ => (labels k).2) (update_of_ne same _ _).symm
    rw [update_off pcs same]

/-- A thread that tends one slot changes nothing for the count of another. -/
theorem SubmissionManager.counted_elsewhere {j : κ} (pcs : s'.pcs = update s.pcs x pc)
    (before : (s.pcs x).tends = some k) (after : pc.tends = some k ∨ pc.tends = none) (ne : j ≠ k)
    (holds : s'.Holds j ↔ s.Holds j) : s'.Counted j ↔ s.Counted j := by
  refine and_congr holds (forall_congr' fun y => not_congr ⟨fun plays => ?_, ?_⟩)
  · exact (role_before pcs (uncounted_ne after ne) plays).2
  · exact role_after pcs (uncounted_ne (.inl before) ne)

/-- Whether a slot is counted is up to the thread that tends it. -/
theorem Tended.counted_iff (h : Tended s) (pcs : s'.pcs = update s.pcs x pc)
    (own : (s.pcs x).tends = some k) :
    s'.Counted k ↔ s'.Holds k ∧ pc.uncounted ≠ some k := by
  refine and_congr_right fun _ => role_nobody pcs fun y ne uncounted => ?_
  exact ne (h.unique y x k
    (tends_of_carries (carries_of_uncounted uncounted)) own)

namespace SubmissionBooks

variable (h : SubmissionBooks s)
include h

/-- The vendor accepts the submission. -/
theorem accept (place : s.pcs x = .calling k) :
    let s' : SubmissionManager κ π := { s.setPc x (.accepted k) with
      accepted := s.accepted ++ [((s.slots k).ticket, (s.slots k).phaseIndex)] }
    SubmissionBooks s' := by
  intro s'
  have pcs : s'.pcs = update s.pcs x (.accepted k) := rfl
  have pending : (s.pcs x).pends = some k := place ▸ rfl
  have own := tends_of_pends pending
  have empty := h.tended.not_holds own (place ▸ rfl)
  have holds (j : κ) : s'.Holds j ↔ s.Holds j ∨ j = k := by
    constructor
    · rintro (submitted | ⟨y, carried⟩)
      · exact .inl (.inl submitted)
      · rcases role_cases pcs carried with ⟨-, new⟩ | ⟨-, old⟩
        · exact .inr (Option.some.inj new).symm
        · exact .inl (.inr ⟨y, old⟩)
    · rintro ((submitted | ⟨y, carried⟩) | rfl)
      · exact .inl submitted
      · exact .inr ⟨y, role_after pcs (by rw [place]; nofun) carried⟩
      · exact .inr ⟨x, by rw [update_at pcs]; rfl⟩
  refine ⟨h.tended.walk x (.accepted k) pcs (fun _ => .inl rfl) (place ▸ rfl)
      (h.tended.fits_on place rfl rfl) (.inl rfl),
    (h.ledger.accept (k := k) ⟨x, pending⟩ ?_).agrees
      { entry := fun _ _ => rfl, pends := ?_, holds := holds
        told := fun j _ => told_congr (role_same _ pcs (place ▸ rfl)) j
        owes := fun y => owes_congr (role_same _ pcs (place ▸ rfl) y) fun _ _ _ => rfl },
    h.counted_of fun j => ?_⟩
  · rintro ⟨y, heard⟩
    exact empty (.inr ⟨y, carries_of_told heard⟩)
  · rintro j ⟨y, pending'⟩
    obtain ⟨ne, old⟩ := role_before pcs (by nofun) pending'
    refine ⟨⟨y, old⟩, ?_⟩
    rintro rfl
    exact ne (h.tended.unique y x j (tends_of_pends old) own)
  · by_cases same : j = k
    · subst same
      rw [h.tended.counted_iff pcs own]
      exact ⟨fun now => absurd rfl now.2, fun before => absurd before.1 empty⟩
    · exact counted_elsewhere pcs own (.inl rfl) same ((holds j).trans (or_iff_left same))

/-- `fail_backend_outstanding` tells the graph while the slot is still its own. -/
theorem tell {status : Status} (place : s.pcs x = .failing k status) :
    let s' : SubmissionManager κ π := { s.setPc x (.failedCounted k) with
      completions := s.completions ++ [((s.slots k).ticket, (s.slots k).phaseIndex)] }
    SubmissionBooks s' := by
  intro s'
  have pcs : s'.pcs = update s.pcs x (.failedCounted k) := rfl
  have carried : (s.pcs x).carries = some k := place ▸ rfl
  have holds := holds_walk pcs rfl (place ▸ rfl)
  refine ⟨h.tended.walk x (.failedCounted k) pcs (fun _ => .inl rfl) (place ▸ rfl)
      (h.tended.fits_on place rfl rfl) (.inl rfl),
    (h.ledger.tell (k := k) (.inr ⟨x, carried⟩) ?_ trivial).agrees
      { entry := fun _ _ => rfl, pends := ?_, holds := holds, told := fun j _ => ?_
        owes := fun y => owes_congr (role_same _ pcs (place ▸ rfl) y) fun _ _ _ => rfl },
    h.counted_of fun j => ?_⟩
  · rintro ⟨y, heard⟩
    obtain rfl := h.tended.unique y x k (tends_of_carries (carries_of_told heard))
      (tends_of_carries carried)
    rw [place] at heard
    cases heard
  · rintro j ⟨y, pending⟩
    exact ⟨y, (role_before pcs (by nofun) pending).2⟩
  · constructor
    · rintro ⟨y, heard⟩
      rcases role_cases pcs heard with ⟨-, new⟩ | ⟨-, old⟩
      · exact .inr (Option.some.inj new).symm
      · exact .inl ⟨y, old⟩
    · rintro (⟨y, heard⟩ | rfl)
      · exact ⟨y, role_after pcs (by rw [place]; nofun) heard⟩
      · exact ⟨x, by rw [update_at pcs]; rfl⟩
  · simp only [Counted, holds, role_same SubmissionPc.uncounted pcs (place ▸ rfl)]

/-- `finalize_completion` tells the graph after it has freed the slot. -/
theorem complete {ticket : ℕ} {status : Status} (place : s.pcs x = .completing k ticket status) :
    let s' : SubmissionManager κ π := { s.setPc x .idle with
      completions := s.completions ++ [(ticket, (s.slots k).phaseIndex)] }
    SubmissionBooks s' := by
  intro s'
  have pcs : s'.pcs = update s.pcs x .idle := rfl
  have holds := holds_walk pcs rfl (place ▸ rfl)
  have owed : s.ledger.owes x = some (ticket, (s.slots k).phaseIndex) := by
    simp [SubmissionManager.ledger, place, SubmissionPc.owes]
  have paid : s'.ledger.owes x = none := by
    simp [SubmissionManager.ledger, pcs, SubmissionPc.owes]
  refine ⟨h.tended.walk x .idle pcs (fun _ => .inl rfl) (place ▸ rfl)
      (by rintro _ ⟨⟩) (.inl rfl),
    (h.ledger.pay owed).agrees
      { entry := fun _ _ => rfl, pends := ?_, holds := holds
        told := fun j _ => told_congr (role_same _ pcs (place ▸ rfl)) j
        owes := fun y => ?_ },
    h.counted_of fun j => ?_⟩
  · rintro j ⟨y, pending⟩
    exact ⟨y, (role_before pcs (by rintro ⟨⟩) pending).2⟩
  · have labels : SameLabels s s' := fun _ => ⟨rfl, rfl⟩
    rw [labels.owes_update pcs y, paid]
    rfl
  · simp only [Counted, holds, role_same SubmissionPc.uncounted pcs (place ▸ rfl)]

/-- A thread that tends nothing moves on and nothing else changes. -/
theorem setPc {old : SubmissionPc κ}
    (place : s.pcs x = old) (tends : pc.tends = old.tends)
    (fits : ∀ k, pc.tends = some k → pc.Fits (s.slots k).state)
    (pends : pc.pends = none ∨ pc.pends = old.pends) (carries : pc.carries = old.carries)
    (uncounted : pc.uncounted = old.uncounted) (told : pc.told = old.told)
    (owes : pc.owes = old.owes) : SubmissionBooks (s.setPc x pc) := by
  subst place
  have pcs : (s.setPc x pc).pcs = update s.pcs x pc := rfl
  exact h.walk (h.tended.walk x pc pcs (fun _ => .inl rfl) tends fits (.inr owes)) pcs
    (fun _ => ⟨rfl, rfl⟩) (holds_walk pcs rfl carries) pends told owes uncounted rfl

theorem look (before : (s.pcs x).Looks) (after : pc.Looks) : SubmissionBooks (s.setPc x pc) := by
  obtain ⟨-, carries, uncounted, told⟩ := before.roles
  obtain ⟨pends', carries', uncounted', told'⟩ := after.roles
  refine h.setPc rfl (after.1.trans before.1.symm) (fun k tends => ?_) (.inl pends')
    (carries'.trans carries.symm) (uncounted'.trans uncounted.symm) (told'.trans told.symm)
    (after.2.trans before.2.symm)
  rw [after.1] at tends
  cases tends

end SubmissionBooks

variable [DecidableEq κ]

/-- A thread that has acquired a slot writes the submission into it. -/
theorem SubmissionBooks.fill (h : SubmissionBooks s) {slot : SubmissionSlot}
    {request : SubmissionRequest} {nextSubmissionId : ℕ} (place : s.pcs x = .acquired k request)
    (state : slot.state = (s.slots k).state) (ticket : slot.ticket = s.nextTicket) :
    let s' : SubmissionManager κ π := { (s.setSlot k slot).setPc x (.filled k) with
      nextSubmissionId, nextTicket := s.nextTicket + 1 }
    SubmissionBooks s' := by
  intro s'
  have pcs : s'.pcs = update s.pcs x (.filled k) := rfl
  have slots : s'.slots = update s.slots k slot := rfl
  have own : (s.pcs x).tends = some k := place ▸ rfl
  have owned : (s.slots k).state = .owned := h.tended.fits_at place rfl
  have holds (j : κ) : s'.Holds j ↔ s.Holds j := by
    simp only [Holds, role_same SubmissionPc.carries pcs (place ▸ rfl)]
    by_cases same : j = k
    · subst same
      rw [update_at slots, state]
    · rw [update_off slots same]
  refine ⟨h.tended.change x (.filled k) k slot pcs slots (.inl own) (.inl ⟨rfl, state.trans owned⟩)
      (.inl rfl) fun y t owed => state.trans (h.tended.owed y k t owed),
    (h.ledger.fill (k := k) (b := (slot.ticket, slot.phaseIndex)) ?_ ticket.ge).agrees
      { entry := fun j _ => ?_, pends := ?_, holds := holds
        told := fun j _ => told_congr (role_same _ pcs (place ▸ rfl)) j
        owes := fun y => owes_congr (role_same _ pcs (place ▸ rfl) y) fun j t owed => ?_
        next := congrArg (· + 1) ticket.symm },
    h.counted_of fun j => ?_⟩
  · rintro (held | ⟨y, pending⟩)
    · exact h.tended.not_holds own (place ▸ rfl) held
    · obtain rfl := h.tended.unique y x k (tends_of_pends pending) own
      rw [place] at pending
      cases pending
  · by_cases same : j = k
    · subst same
      simp [SubmissionManager.ledger, Ledger.fill, slots]
    · simp [SubmissionManager.ledger, Ledger.fill, slots, same]
  · rintro j ⟨y, pending⟩
    rcases role_cases pcs pending with ⟨-, new⟩ | ⟨-, old⟩
    · exact .inl (Option.some.inj new).symm
    · exact .inr ⟨y, old⟩
  · rw [update_off slots]
    rintro rfl
    cases owned.symm.trans (h.tended.owed y j t owed)
  · simp only [Counted, holds, role_same SubmissionPc.uncounted pcs (place ▸ rfl)]

section

variable (h : SubmissionBooks s) (carried : (s.pcs x).carries = some k)
  (pcs : s'.pcs = update s.pcs x pc) (own' : pc.tends = some k)
  (holds : ∀ j, s'.Holds j ↔ s.Holds j)
include h carried pcs own' holds

theorem SubmissionBooks.counted_count (before : (s.pcs x).uncounted = some k)
    (after : pc.uncounted = none) : {j | s'.Counted j}.encard = ↑(s.outstanding + 1) := by
  have own := tends_of_carries carried
  have counted : {j | s'.Counted j} = insert k {j | s.Counted j} := by
    ext j
    by_cases same : j = k
    · subst same
      simp [h.tended.counted_iff pcs own, holds, after, show s.Holds j from .inr ⟨x, carried⟩]
    · simp [same, counted_elsewhere pcs own (.inl own') same (holds j)]
  rw [counted, Set.encard_insert_of_notMem fun member => member.2 x before, h.counted]
  rfl

theorem SubmissionBooks.counted_drop (before : (s.pcs x).uncounted = none)
    (after : pc.uncounted = some k) : {j | s'.Counted j}.encard = ↑(s.outstanding - 1) := by
  have own := tends_of_carries carried
  have member : k ∈ {j | s.Counted j} :=
    (h.tended.counted_iff (update_eq_self x s.pcs).symm own).mpr
      ⟨.inr ⟨x, carried⟩, by rw [before]; nofun⟩
  have counted : {j | s'.Counted j} = {j | s.Counted j} \ {k} := by
    ext j
    by_cases same : j = k
    · subst same
      simp [h.tended.counted_iff pcs own, after]
    · simp [same, counted_elsewhere pcs own (.inl own') same (holds j)]
  rw [counted, Set.encard_sdiff_singleton_of_mem member, h.counted]
  rfl

end

/-- A thread frees the slot that it tends.  Either the graph has heard of the submission or the
thread still owes it the news. -/
theorem SubmissionBooks.vacate (h : SubmissionBooks s) {old : SubmissionPc κ}
    (place : s.pcs x = old) (dropped : old.uncounted = some k) (paid : old.owes = none)
    (after : pc.tends = none ∧ pc.pends = none ∧ pc.carries = none ∧ pc.told = none)
    (debt : pc.owes = none ∧ old.told = some k ∨
      pc.owes = some (k, (s.slots k).ticket) ∧ old.told = none) :
    let s' : SubmissionManager κ π := { (s.setState k .free).setPc x pc with
      freed := s.freed ++ [(s.slots k).ticket] }
    SubmissionBooks s' := by
  intro s'
  have pcs : s'.pcs = update s.pcs x pc := rfl
  have slots : s'.slots = update s.slots k { s.slots k with state := .free } := rfl
  subst place
  obtain ⟨tends, pends, carries, told⟩ := after
  have carried := carries_of_uncounted dropped
  have own := tends_of_carries carried
  have labels : SameLabels s s' := sameLabels_setState slots rfl rfl
  have others {y : π} (ne : y ≠ x) : (s.pcs y).tends ≠ some k :=
    fun tends => ne (h.tended.unique y x k tends own)
  have holds (j : κ) : s'.Holds j ↔ s.Holds j ∧ j ≠ k := by
    constructor
    · rintro (submitted | ⟨y, carrying⟩)
      · have ne : j ≠ k := by
          rintro rfl
          rw [update_at slots] at submitted
          cases submitted
        rw [update_off slots ne] at submitted
        exact ⟨.inl submitted, ne⟩
      · obtain ⟨ne, old⟩ := role_before pcs (by rw [carries]; nofun) carrying
        refine ⟨.inr ⟨y, old⟩, ?_⟩
        rintro rfl
        exact others ne (tends_of_carries old)
    · rintro ⟨submitted | ⟨y, carrying⟩, ne⟩
      · exact .inl (by rwa [update_off slots ne])
      · refine .inr ⟨y, role_after pcs (fun mine => ne ?_) carrying⟩
        exact Option.some.inj (mine.symm.trans carried)
  refine ⟨h.tended.change x pc k _ pcs slots (.inl own) (.inr ⟨tends, .inl rfl⟩)
      (debt.imp And.left fun owed => ⟨rfl, _, owed.1⟩) fun _ _ _ => rfl,
    (h.ledger.free (x := x) (k := k) (s'.ledger.owes x) (.inr ⟨x, carried⟩)
      (by simp [SubmissionManager.ledger, paid]) ?_).agrees
      { entry := fun j _ => labels.entry j, pends := ?_, holds := holds, told := fun j now => ?_
        owes := labels.owes_update pcs },
    h.counted_of fun j => ?_⟩
  · have now : s'.ledger.owes x = pc.owes.map fun debt => (debt.2, (s'.slots debt.1).phaseIndex) := by
      rw [← update_at pcs]
      rfl
    rw [now]
    refine debt.imp (fun both => ⟨by rw [both.1]; rfl, .inl ⟨x, both.2⟩⟩)
      fun both => ⟨?_, ?_, trivial⟩
    · rw [both.1, Option.map_some, (labels k).2]
      rfl
    · rintro ⟨y, heard⟩
      by_cases same : y = x
      · subst same
        rw [both.2] at heard
        cases heard
      · exact others same (tends_of_carries (carries_of_told heard))
  · rintro j ⟨y, pending⟩
    exact ⟨y, (role_before pcs (by rw [pends]; nofun) pending).2⟩
  · refine exists_congr fun y => ⟨fun heard => ?_, fun heard => ?_⟩
    · exact (role_before pcs (by rw [told]; nofun) heard).2
    · refine role_after pcs (fun mine => ((holds j).mp now).2 ?_) heard
      exact Option.some.inj ((carries_of_told mine).symm.trans carried)
  · by_cases same : j = k
    · subst same
      exact ⟨fun now => absurd rfl ((holds j).mp now.1).2, fun old => absurd dropped (old.2 x)⟩
    · exact counted_elsewhere pcs own (.inr tends) same ((holds j).trans (and_iff_left same))

/-- A slot changes hands and holds an accepted submission afterwards as before. -/
theorem SubmissionManager.holds_change {slot : SubmissionSlot}
    (pcs : s'.pcs = update s.pcs x pc) (slots : s'.slots = update s.slots k slot)
    (before : (s.pcs x).carries = none ∨ (s.pcs x).carries = some k)
    (after : pc.carries = none ∨ pc.carries = some k)
    (here : (slot.state = .submitted ∨ pc.carries = some k) ↔
      ((s.slots k).state = .submitted ∨ (s.pcs x).carries = some k)) (j : κ) :
    s'.Holds j ↔ s.Holds j := by
  have split (c : SubmissionPc κ) : (∃ y, (update s.pcs x c y).carries = some j) ↔
      c.carries = some j ∨ ∃ y ≠ x, (s.pcs y).carries = some j :=
    exists_update_iff s.pcs fun _ c => c.carries = some j
  have before' := split (s.pcs x)
  rw [update_eq_self] at before'
  rw [Holds, Holds, pcs, slots, split, before', ← or_assoc, ← or_assoc]
  refine or_congr_left ?_
  by_cases same : j = k
  · subst same
    rw [update_self]
    exact here
  · have away {c : Option κ} (which : c = none ∨ c = some k) : c ≠ some j := by
      rintro rfl
      rcases which with none | some
      · cases none
      · exact same (Option.some.inj some)
    rw [update_of_ne same]
    exact or_congr_right ⟨fun now => absurd now (away after), fun then' => absurd then' (away before)⟩

namespace SubmissionBooks

section

variable (h : SubmissionBooks s)
include h

/-- A slot changes hands without a change to the books. -/
theorem change {state : SubmissionState}
    {old : SubmissionPc κ} (place : s.pcs x = old) (mine : old.tends = some k ∨
      old.tends = none ∧ ((s.slots k).state = .free ∨ (s.slots k).state = .submitted))
    (after : pc.tends = some k ∧ pc.Fits state ∨
      pc.tends = none ∧ (state = .free ∨ state = .submitted))
    (unowed : ∀ y ticket, (s.pcs y).owes = some (k, ticket) → state = .free)
    (here : (state = .submitted ∨ pc.carries = some k) ↔
      ((s.slots k).state = .submitted ∨ old.carries = some k))
    (pends : pc.pends = none ∨ pc.pends = old.pends) (uncounted : pc.uncounted = old.uncounted)
    (told : pc.told = old.told) (owes : pc.owes = none ∧ old.owes = none) :
    SubmissionBooks ((s.setState k state).setPc x pc) := by
  subst place
  have carried (c : SubmissionPc κ) (which : c.tends = some k ∨ c.tends = none) :
      c.carries = none ∨ c.carries = some k := by
    cases carries : c.carries with
    | none => exact .inl rfl
    | some j =>
      have tends := tends_of_carries carries
      rcases which with own | none
      · rw [own] at tends
        exact .inr tends.symm
      · rw [none] at tends
        cases tends
  have pcs : ((s.setState k state).setPc x pc).pcs = update s.pcs x pc := rfl
  have slots : ((s.setState k state).setPc x pc).slots =
    update s.slots k { s.slots k with state := state } := rfl
  exact h.walk (h.tended.change x pc k _ pcs slots mine after (.inl owes.1) unowed) pcs
    (sameLabels_setState slots rfl rfl) (holds_change pcs slots (carried _ (mine.imp_right And.left))
      (carried _ (after.imp And.left And.left)) here) pends told (owes.1.trans owes.2.symm) uncounted
    rfl

/-- A thread that only looks offers a completion to the thread that is still submitting, or writes
an early completion into the slot. -/
theorem watch {slot : SubmissionSlot}
    (before : (s.pcs x).Looks) (after : pc.Looks) (ticket : slot.ticket = (s.slots k).ticket)
    (phase : slot.phaseIndex = (s.slots k).phaseIndex) (state : slot.state = (s.slots k).state ∨
      (s.slots k).state = .submitting ∧ slot.state = .earlyReady) :
    SubmissionBooks ((s.setSlot k slot).setPc x pc) := by
  have pcs : ((s.setSlot k slot).setPc x pc).pcs = update s.pcs x pc := rfl
  have slots : ((s.setSlot k slot).setPc x pc).slots = update s.slots k slot := rfl
  obtain ⟨-, carries, uncounted, told⟩ := before.roles
  obtain ⟨pends', carries', uncounted', told'⟩ := after.roles
  refine h.walk (h.tended.walk x pc pcs (fun j => ?_) (after.1.trans before.1.symm)
    (fun j tends => ?_) (.inl after.2)) pcs (sameLabels_setState slots ticket phase)
    (holds_change pcs slots (.inl carries) (.inl carries') ?_) (.inl pends')
    (told'.trans told.symm) (after.2.trans before.2.symm) (uncounted'.trans uncounted.symm) rfl
  · rw [slots]
    by_cases same : j = k
    · subst same
      rwa [update_self]
    · rw [update_of_ne same]
      exact .inl rfl
  · rw [after.1] at tends
    cases tends
  · rw [carries, carries']
    rcases state with same | ⟨found, early⟩
    · rw [same]
    · simp [found, early]

/-- A thread takes its slot out of the count before it frees it. -/
theorem drop {old : SubmissionPc κ}
    (place : s.pcs x = old) (carried : old.carries = some k) (before : old.uncounted = none)
    (after : pc.uncounted = some k) (carries : pc.carries = old.carries)
    (pends : pc.pends = old.pends) (told : pc.told = old.told) (owes : pc.owes = old.owes)
    (debt : pc.owes = none) (fits : pc.Fits = old.Fits) :
    SubmissionBooks { s.setPc x pc with outstanding := s.outstanding - 1 } := by
  subst place
  have pcs : (s.setPc x pc).pcs = update s.pcs x pc := rfl
  have own' : pc.tends = some k := tends_of_carries (carries.trans carried)
  have tends := own'.trans (tends_of_carries carried).symm
  have holds := holds_walk pcs rfl carries
  have walked := h.tended.walk x pc pcs (fun _ => .inl rfl) tends (h.tended.fits_on rfl tends fits)
    (.inl debt)
  exact h.same { walked with } pcs (fun _ => ⟨rfl, rfl⟩) holds (.inr pends) told owes
    (h.counted_drop carried pcs own' holds before after) rfl

theorem step {vendor : Status} (stepped : s.step x vendor = some s') : SubmissionBooks s' := by
  have unowed (k : κ) (state : SubmissionState) (busy : (s.slots k).state ≠ .free) (y : π)
      (ticket : ℕ) (owed : (s.pcs y).owes = some (k, ticket)) : state = .free :=
    absurd (h.tended.owed y k ticket owed) busy
  unfold SubmissionManager.step at stepped
  split at stepped
  next => cases stepped
  next k request place =>
    cases stepped
    exact h.fill place rfl rfl
  next k place =>
    cases stepped
    have owned := (h.tended.fits_at place rfl).tended
    refine h.change place (.inl rfl) (.inl ⟨rfl, .inl rfl⟩) (unowed k _ owned.1) ?_ (.inr rfl) rfl
      rfl ⟨rfl, rfl⟩
    simp [SubmissionPc.carries, owned.2]
  next k place =>
    split at stepped <;> cases stepped
    · exact h.accept place
    · exact h.setPc place rfl (h.tended.fits_on place rfl rfl) (.inr rfl) rfl rfl rfl rfl
  next k place =>
    cases stepped
    have fits := (h.tended.fits_at place rfl).tended
    refine h.change place (.inl rfl) (.inr ⟨rfl, .inl rfl⟩) (fun _ _ _ => rfl) ?_ (.inl rfl) rfl rfl
      ⟨rfl, rfl⟩
    simp [SubmissionPc.carries, fits.2]
  next k place =>
    cases stepped
    have pcs : (s.setPc x (.counted k)).pcs = update s.pcs x (.counted k) := rfl
    have holds := holds_walk pcs rfl (place ▸ rfl)
    have walked := h.tended.walk x (.counted k) pcs (fun _ => .inl rfl) (place ▸ rfl)
      (h.tended.fits_on place rfl rfl) (.inl rfl)
    exact h.same { walked with } pcs (fun _ => ⟨rfl, rfl⟩) holds (.inl rfl) (place ▸ rfl)
      (place ▸ rfl) (h.counted_count (k := k) (place ▸ rfl) pcs rfl holds (place ▸ rfl) rfl) rfl
  next k place =>
    cases stepped
    unfold cas
    rcases h.tended.fits_at place rfl with submitting | early
    · rw [if_pos submitting]
      refine h.change place (.inl rfl) (.inr ⟨rfl, .inr rfl⟩) (unowed k _ (by simp [submitting])) ?_
        (.inl rfl) rfl rfl ⟨rfl, rfl⟩
      simp [SubmissionPc.carries]
    · rw [if_neg (by simp [early]), if_pos early]
      refine h.setPc place rfl (fun j tends => ?_) (.inl rfl) rfl rfl rfl rfl
      cases tends
      exact early
  next k place =>
    cases stepped
    have fits := h.tended.fits_at place rfl
    have early : (s.slots k).state = .earlyReady := fits
    unfold cas
    rw [if_pos early]
    refine h.change place (.inl rfl) (.inl ⟨rfl, rfl⟩) (unowed k _ fits.tended.1) ?_ (.inl rfl) rfl
      rfl ⟨rfl, rfl⟩
    simp [SubmissionPc.carries]
  next k state reason place =>
    cases stepped
    refine h.look (by rw [place]; exact ⟨rfl, rfl⟩) ?_
    split <;> exact ⟨rfl, rfl⟩
  next k state reason place =>
    have looks : (s.pcs x).Looks := by rw [place]; exact ⟨rfl, rfl⟩
    split at stepped <;> cases stepped
    · exact h.watch looks ⟨rfl, rfl⟩ rfl rfl (.inl rfl)
    · unfold cas
      split
      next found =>
        have claims : (claimed k reason).tends = some k ∧
            (claimed k reason).Fits .owned ∧
            (claimed k reason).carries = some k ∧
            (claimed k reason).pends = none ∧
            (claimed k reason).uncounted = none ∧
            (claimed k reason).told = none ∧
            (claimed k reason).owes = none := by
          cases reason <;> exact ⟨rfl, rfl, rfl, rfl, rfl, rfl, rfl⟩
        obtain ⟨tends, fits, carries, pends, uncounted, told, owes⟩ := claims
        refine h.change rfl (.inr ⟨looks.1, .inr found⟩) (.inl ⟨tends, fits⟩)
          (unowed k _ (by simp [found])) ?_ (.inl pends) (uncounted.trans looks.roles.2.2.1.symm)
          (told.trans looks.roles.2.2.2.symm) ⟨owes, looks.2⟩
        simp [carries, found]
      next => exact h.look looks ⟨rfl, rfl⟩
  next k reason place =>
    have looks : (s.pcs x).Looks := by rw [place]; exact ⟨rfl, rfl⟩
    cases stepped
    unfold cas
    split
    next found => exact h.watch looks ⟨rfl, rfl⟩ rfl rfl (.inr ⟨found, rfl⟩)
    next =>
      refine h.look looks ?_
      split <;> exact ⟨rfl, rfl⟩
  next k status place =>
    cases stepped
    exact h.drop place rfl rfl rfl rfl rfl rfl rfl rfl rfl
  next k status place =>
    cases stepped
    exact h.vacate place rfl rfl ⟨rfl, rfl, rfl, rfl⟩ (.inr ⟨rfl, rfl⟩)
  next k ticket status place =>
    cases stepped
    exact h.complete place
  next k status place =>
    cases stepped
    exact h.tell place
  next k place =>
    cases stepped
    exact h.drop place rfl rfl rfl rfl rfl rfl rfl rfl rfl
  next k place =>
    cases stepped
    exact h.vacate place rfl rfl ⟨rfl, rfl, rfl, rfl⟩ (.inl ⟨rfl, rfl⟩)

/-- Every step that acquires no slot too early keeps the books. -/
theorem act {action : SubmissionAction κ π}
    (unhurried : s.Unhurried action) (stepped : s.act action = some s') : SubmissionBooks s' := by
  cases action with
  | submit x k request =>
    simp only [SubmissionManager.act] at stepped
    split at stepped
    next place =>
      split at stepped
      next free =>
        cases stepped
        refine h.change place (.inr ⟨rfl, .inl free⟩) (.inl ⟨rfl, rfl⟩) (fun y ticket owed => ?_) ?_
          (.inl rfl) rfl rfl ⟨rfl, rfl⟩
        · exact absurd (calls_of_owes owed) (unhurried y)
        · simp [SubmissionPc.carries, free]
      next => cases stepped
    next => cases stepped
  | look x k reason =>
    simp only [SubmissionManager.act] at stepped
    split at stepped
    next place =>
      cases stepped
      exact h.look (by rw [place]; exact ⟨rfl, rfl⟩) ⟨rfl, rfl⟩
    next => cases stepped
  | step x vendor => exact h.step stepped

end

end SubmissionBooks

end RtRuntime
