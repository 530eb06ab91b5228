import RtRuntime.LiveSettlement

/-!
# What a boundary publishes

`close_boundary` scans the slots, takes the staged updates of its boundary and makes a generation of
them: for each mailbox and kind of update the one that was staged last.  Where in the mailboxes the
updates stood does not matter, and what waits for settlement never outgrows the slots.
-/

namespace RtRuntime

open List

section Survivors

/-- The place of an update in a generation: by mailbox, then by sequence. -/
def LiveControlUpdateRecord.place (record : LiveControlUpdateRecord) : ℕ ×ₗ ℕ :=
  toLex (record.mailboxIdentity.toNat, record.mailboxSequence.toNat)

/-- Updates of which only the later one survives. -/
def LiveControlUpdateRecord.Rivals (first second : LiveControlUpdateRecord) : Prop :=
  first.mailboxIdentity = second.mailboxIdentity ∧ first.updateKind = second.updateKind

theorem captureOrder_iff {left right : LiveControlUpdateRecord} :
    captureOrder left right = true ↔ left.place ≤ right.place := by
  simp [captureOrder, LiveControlUpdateRecord.place, Prod.Lex.toLex_le_toLex,
    UInt64.lt_iff_toNat_lt, UInt64.le_iff_toNat_le, ← UInt64.toNat_inj]

variable {κ : Type*} {record : κ → LiveControlUpdateRecord} {slots : List κ}

/-- Among updates in order those survive that come after all their rivals. -/
theorem mem_survivors (sorted : slots.Pairwise fun a b => (record a).place < (record b).place)
    {slot : κ} :
    slot ∈ ((markSurvivors record slots).filter (·.2)).map (·.1) ↔
      slot ∈ slots ∧ ∀ other ∈ slots, (record other).Rivals (record slot) →
        (record other).place ≤ (record slot).place := by
  induction slots with
  | nil => simp [markSurvivors]
  | cons first later ih =>
    obtain ⟨ahead, sorted⟩ := pairwise_cons.mp sorted
    have replaced : (later.any fun other =>
        (record other).mailboxIdentity == (record first).mailboxIdentity &&
          (record other).updateKind == (record first).updateKind) = true ↔
        ∃ other ∈ later, (record other).Rivals (record first) := by
      simp [LiveControlUpdateRecord.Rivals]
    rw [markSurvivors, filter_cons, mem_cons]
    split
    next kept =>
      rw [Bool.not_eq_true', ← Bool.not_eq_true, replaced] at kept
      rw [map_cons, mem_cons, ih sorted]
      constructor
      · rintro (rfl | ⟨member, last⟩)
        · refine ⟨.inl rfl, forall_mem_cons.mpr ⟨fun _ => le_rfl, fun other inside rivals => ?_⟩⟩
          exact absurd ⟨other, inside, rivals⟩ kept
        · exact ⟨.inr member, forall_mem_cons.mpr ⟨fun _ => (ahead slot member).le, last⟩⟩
      · rintro ⟨rfl | member, last⟩
        · exact .inl rfl
        · exact .inr ⟨member, (forall_mem_cons.mp last).2⟩
    next lost =>
      rw [Bool.not_eq_true', ← Bool.not_eq_true, replaced, not_not] at lost
      rw [ih sorted]
      constructor
      · rintro ⟨member, last⟩
        exact ⟨.inr member, forall_mem_cons.mpr ⟨fun _ => (ahead slot member).le, last⟩⟩
      · rintro ⟨rfl | member, last⟩
        · obtain ⟨other, inside, rivals⟩ := lost
          have after := last other (mem_cons_of_mem _ inside) rivals
          exact absurd (ahead other inside) (not_lt.mpr after)
        · exact ⟨member, (forall_mem_cons.mp last).2⟩

end Survivors

section Scan

/-- The slot is staged for exactly this boundary. -/
def LiveSlot.Awaits (slot : LiveSlot) (target : LiveControlBoundaryTarget) : Prop :=
  slot.state = .staged ∧ slot.record.current target = true

instance (slot : LiveSlot) (target : LiveControlBoundaryTarget) : Decidable (slot.Awaits target) :=
  inferInstanceAs (Decidable (_ ∧ _))

/-- What the scan makes of a slot: an update of the boundary is taken, one whose boundary is closed
already is missed, and one for an open boundary stays. -/
def LiveSlot.scanned (targets : List LiveRateTarget) (b : LiveBoundaries)
    (target : LiveControlBoundaryTarget) (slot : LiveSlot) : LiveSlot :=
  if slot.Awaits target then { slot with state := .boundaryOwned }
  else if slot.state = .staged ∧ b.targetClosed targets slot.record = true then
    { slot with state := .missed, terminalGeneration := 0 }
  else slot

variable {κ μ τ : Type*} [DecidableEq κ] [DecidableEq μ] [DecidableEq τ]
variable (boxes : LiveMailboxes κ μ) {s : LiveTransactionState κ μ τ}
variable {target : LiveControlBoundaryTarget}

/-- The state when one slot has been scanned, whatever the occupancy is then. -/
def LiveTransactionState.took (s : LiveTransactionState κ μ τ) (target : LiveControlBoundaryTarget)
    (slot : κ) (occupancy : μ → ℕ) (host : HostPc κ) : LiveTransactionState κ μ τ :=
  { s with
    slots := Function.update s.slots slot
      ((s.slots slot).scanned boxes.targets s.boundaries target)
    occupancy := occupancy
    host := host }

theorem LiveTransactionState.scan_slot {slot : κ} {rest captured : List κ}
    (host : s.host = .scanning target (slot :: rest) captured) :
    ∃ n occupancy, runActions (act boxes) s (replicate n .scan) =
      some (s.took boxes target slot occupancy (.scanning target rest
        (captured ++ if (s.slots slot).Awaits target then [slot] else []))) := by
  unfold took
  by_cases awaits : (s.slots slot).Awaits target
  · refine ⟨2, (s.setState boxes slot .boundaryOwned).occupancy, ?_⟩
    simp [runActions, act, scan, host, awaits, awaits.1, awaits.2, LiveSlot.scanned, setState]
  · by_cases late : (s.slots slot).state = .staged ∧
        s.boundaries.targetClosed boxes.targets (s.slots slot).record = true
    · have other : (s.slots slot).record.current target = false := by
        simpa [LiveSlot.Awaits, late.1] using awaits
      refine ⟨2, (s.setSlot boxes slot { s.slots slot with
        state := .missed, terminalGeneration := 0 }).occupancy, ?_⟩
      simp [runActions, act, scan, host, late.1, late.2, other, LiveSlot.scanned, LiveSlot.Awaits]
    · have looks : ¬((s.slots slot).state = .staged ∧ ((s.slots slot).record.current target ||
          s.boundaries.targetClosed boxes.targets (s.slots slot).record) = true) := by
        simp only [LiveSlot.Awaits, Bool.or_eq_true] at awaits late ⊢
        tauto
      refine ⟨1, s.occupancy, ?_⟩
      simp [-Bool.or_eq_true, runActions, act, scan, host, looks, awaits, late, LiveSlot.scanned]

/-- The scan of all the slots that are left. -/
theorem LiveTransactionState.scan_rest {rest captured : List κ} (nodup : rest.Nodup)
    (host : s.host = .scanning target rest captured) :
    ∃ n occupancy, runActions (act boxes) s (replicate n .scan) = some { s with
      slots := fun k =>
        if k ∈ rest then (s.slots k).scanned boxes.targets s.boundaries target else s.slots k
      occupancy := occupancy
      host := .scanning target [] (captured ++ rest.filter fun k => (s.slots k).Awaits target) } := by
  induction rest generalizing s captured with
  | nil => exact ⟨0, s.occupancy, by simp [runActions, ← host]⟩
  | cons slot rest ih =>
    obtain ⟨fresh, nodup⟩ := nodup_cons.mp nodup
    obtain ⟨m, occupancy, first⟩ := scan_slot boxes host
    obtain ⟨n, occupancy, more⟩ := ih (s := s.took boxes target slot occupancy _) nodup rfl
    refine ⟨m + n, occupancy, ?_⟩
    rw [replicate_add, runActions_append, first, Option.bind_some, more]
    have others (k : κ) (member : k ∈ rest) :
        ((s.took boxes target slot occupancy .outside).slots k) = s.slots k :=
      Function.update_of_ne (ne_of_mem_of_not_mem member fresh) ..
    congr 2
    · funext k
      by_cases same : k = slot
      · simp [took, same, fresh]
      · simp [took, same]
    · rw [filter_congr (q := fun k => decide ((s.slots k).Awaits target)), append_assoc]
      · by_cases awaits : (s.slots slot).Awaits target <;> simp [awaits]
      · intro k member
        rw [← others k member]
        rfl

end Scan

section Publication

variable {κ μ τ : Type*} [DecidableEq κ] [DecidableEq μ] [DecidableEq τ]
variable (boxes : LiveMailboxes κ μ) {s : LiveTransactionState κ μ τ}
variable (target : LiveControlBoundaryTarget)

/-- The update stands staged for exactly this boundary, in some slot, with this payload. -/
def LiveTransactionState.Offers (s : LiveTransactionState κ μ τ)
    (entry : LiveControlUpdateRecord × List UInt8) : Prop :=
  ∃ slot ∈ boxes.slots, (s.slots slot).Awaits target ∧
    ((s.slots slot).record, (s.slots slot).payload) = entry

/-- A mailbox gives each sequence once. -/
def LiveTransactionState.Sequenced (s : LiveTransactionState κ μ τ) : Prop :=
  ∀ a ∈ boxes.slots, ∀ b ∈ boxes.slots, (s.slots a).Awaits target → (s.slots b).Awaits target →
    (s.slots a).record.place = (s.slots b).record.place → a = b

/-- The generation that a boundary makes of what it is offered: in order, of rivals the last one,
and none if there is nothing. -/
def Publishes (offers : LiveControlUpdateRecord × List UInt8 → Prop)
    (before after : Option LiveGeneration) : Prop :=
  ∃ records : List (LiveControlUpdateRecord × List UInt8),
    records.Pairwise (fun a b => a.1.place < b.1.place) ∧
    (∀ entry, entry ∈ records ↔ offers entry ∧
      ∀ other, offers other → other.1.Rivals entry.1 → other.1.place ≤ entry.1.place) ∧
    after = if records = [] then before else some
      { generationIdentity := boxes.identify target (records.map (·.1))
        target := target
        records := records }

/-- The slots that survive among those taken. -/
def LiveTransactionState.surviving (s : LiveTransactionState κ μ τ) (taken : List κ) : List κ :=
  ((markSurvivors (fun k => (s.slots k).record) (taken.mergeSort fun a b =>
    captureOrder (s.slots a).record (s.slots b).record)).filter (·.2)).map (·.1)

omit [DecidableEq κ] [DecidableEq μ] [DecidableEq τ] in
theorem LiveTransactionState.publishGeneration_spec (taken : List κ) :
    (s.publishGeneration boxes target taken).host = .outside ∧
    (s.publishGeneration boxes target taken).slots = s.slots ∧
    (s.publishGeneration boxes target taken).activeView =
      if s.surviving taken = [] then s.activeView else some
        { generationIdentity :=
            boxes.identify target ((s.surviving taken).map fun k => (s.slots k).record)
          target := target
          records := (s.surviving taken).map fun k => ((s.slots k).record, (s.slots k).payload) } := by
  unfold surviving
  simp only [publishGeneration]
  split
  · exact ⟨rfl, rfl, rfl⟩
  · exact ⟨rfl, rfl, by simp only [activeView, if_true, Function.update_self]⟩

variable {boxes target}

omit [DecidableEq κ] [DecidableEq μ] in
/-- What is offered determines the generation. -/
theorem Publishes.unique {offers : LiveControlUpdateRecord × List UInt8 → Prop}
    {before after after' : Option LiveGeneration} (h : Publishes boxes target offers before after)
    (h' : Publishes boxes target offers before after') : after = after' := by
  obtain ⟨records, sorted, mem, rfl⟩ := h
  obtain ⟨records', sorted', mem', rfl⟩ := h'
  let r (a b : LiveControlUpdateRecord × List UInt8) : Prop := a.1.place < b.1.place
  have : Std.Irrefl r := ⟨fun _ => lt_irrefl _⟩
  have : Std.Antisymm r := ⟨fun _ _ first second => absurd first second.not_gt⟩
  obtain rfl : records = records' := List.Pairwise.eq_of_mem_iff (r := r) sorted sorted'
    fun entry => (mem entry).trans (mem' entry).symm
  rfl

/-- A boundary that is closed alone publishes what it is offered. -/
theorem LiveTransactionState.closes (host : s.host = .scanning target boxes.slots [])
    (sequenced : s.Sequenced boxes target) :
    ∃ n s', runActions (act boxes) s (replicate n .scan) = some s' ∧ s'.host = .outside ∧
      Publishes boxes target (s.Offers boxes target) s.activeView s'.activeView ∧
      ∀ slot ∈ boxes.slots,
        s'.slots slot = (s.slots slot).scanned boxes.targets s.boundaries target := by
  obtain ⟨n, occupancy, ran⟩ := scan_rest boxes boxes.nodup host
  generalize scanned : ({ s with slots := _, occupancy := _, host := _ } :
    LiveTransactionState κ μ τ) = u at ran
  have contents (k : κ) : (u.slots k).record = (s.slots k).record ∧
      (u.slots k).payload = (s.slots k).payload := by
    subst scanned
    unfold LiveSlot.scanned
    dsimp only
    split_ifs <;> exact ⟨rfl, rfl⟩
  let le (a b : κ) : Bool := captureOrder (s.slots a).record (s.slots b).record
  let taken := boxes.slots.filter fun k => (s.slots k).Awaits target
  have mem_taken (k : κ) : k ∈ taken.mergeSort le ↔
      k ∈ boxes.slots ∧ (s.slots k).Awaits target := by
    simp [taken, mem_mergeSort]
  have sorted : (taken.mergeSort le).Pairwise fun a b =>
      (s.slots a).record.place < (s.slots b).record.place := by
    have ordered : (taken.mergeSort le).Pairwise fun a b => le a b = true :=
      pairwise_mergeSort (fun a b c => by simpa only [le, captureOrder_iff] using le_trans)
        (fun a b => by simpa only [le, Bool.or_eq_true, captureOrder_iff] using le_total _ _) taken
    have apart := (mergeSort_perm taken le).nodup_iff.mpr (boxes.nodup.filter _)
    refine (ordered.and apart).imp_of_mem fun {a b} first second both => ?_
    obtain ⟨ma, awaits⟩ := (mem_taken a).mp first
    obtain ⟨mb, awaits'⟩ := (mem_taken b).mp second
    exact (captureOrder_iff.mp both.1).lt_of_ne
      fun same => both.2 (sequenced a ma b mb awaits awaits' same)
  have sublist : (s.surviving taken).Sublist (taken.mergeSort le) := by
    rw [← markSurvivors_map_fst (fun k => (s.slots k).record) (taken.mergeSort le)]
    exact filter_sublist.map _
  have same : u.surviving taken = s.surviving taken := by simp only [surviving, contents]
  obtain ⟨outside, slots, view⟩ := u.publishGeneration_spec boxes target taken
  simp only [same, contents] at view
  refine ⟨n + 1, u.publishGeneration boxes target taken, ?_, outside, ?_, fun slot member => ?_⟩
  · rw [replicate_add, runActions_append, ran]
    subst scanned
    rfl
  · refine ⟨(s.surviving taken).map fun k => ((s.slots k).record, (s.slots k).payload), ?_,
      fun entry => ?_, ?_⟩
    · exact pairwise_map.mpr (sorted.sublist sublist)
    · have survives (k : κ) : k ∈ s.surviving taken ↔ _ := mem_survivors sorted
      simp only [mem_taken] at survives
      rw [mem_map]
      constructor
      · rintro ⟨k, member, rfl⟩
        obtain ⟨found, last⟩ := (survives k).mp member
        refine ⟨⟨k, found.1, found.2, rfl⟩, ?_⟩
        rintro _ ⟨other, inside, awaits, rfl⟩
        exact last other ⟨inside, awaits⟩
      · rintro ⟨⟨k, member, awaits, rfl⟩, last⟩
        refine ⟨k, (survives k).mpr ⟨⟨member, awaits⟩, fun other found => ?_⟩, rfl⟩
        exact last _ ⟨other, found.1, found.2, rfl⟩
    · rw [view, ← scanned]
      simp [Function.comp_def, activeView]
  · rw [slots, ← scanned]
    exact if_pos member

/-- Frame 1 is about to close on two updates of one kind, the first of them in the later slot. -/
def twoStaged : List (LiveAction Bool Unit) :=
  [.claim () true (frameRecord 1 1) [7], .publish (), .recheck (),
    .claim () false (frameRecord 1 2) [8], .publish (), .recheck (), .begin,
    .close (.closeHostFrame 1)]

end Publication

end RtRuntime

