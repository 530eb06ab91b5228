import RtRuntime.DeviceOwnership

/-!
# Handing batches to the vendor

The submission lane scans for the queued batch with the least sequence number, checks that batch's
wait points, and claims its slot.  As long as nobody reuses a slot that the lane goes by, and nobody
publishes while the lane scans, the batch it claims is the one it has checked and the first one that
was accepted.
-/

namespace RtRuntime

open Function List BatchManager

variable {κ τ : Type*}

section Invariant

/-- The points of `submit_batch` at which a caller has the admission lock. -/
def BatchPc.InSubmit : BatchPc κ → Prop
  | .searching _ | .reserved _ | .filled _ | .counted _ | .unlocking => True
  | _ => False

/-- The slots that the lane goes by: the one it has just found queued, the candidate of its scan, and
the one it has chosen and not claimed yet. -/
def BatchPc.regards : BatchPc κ → List κ
  | .scanning _ candidate => (candidate.map Prod.fst).toList
  | .sighted k _ candidate => k :: (candidate.map Prod.fst).toList
  | .preferred k _ | .checking k _ | .comparing k _ _ | .claiming k => [k]
  | _ => []

/-- The lane is between the start and the end of a scan. -/
def BatchPc.scans : BatchPc κ → Bool
  | .scanning _ _ | .sighted _ _ _ | .preferred _ _ => true
  | _ => false

variable (s : BatchManager κ τ)

def BatchManager.Queued (k : κ) : Prop := (s.slots k).state = .queued

def BatchManager.sequence (k : κ) : ℕ := (s.slots k).batch.sequence

def BatchManager.waits (k : κ) : List TimelinePoint :=
  (s.slots k).batch.request.waits

/-- No queued batch was accepted before the one in `k`. -/
def BatchManager.First (k : κ) : Prop :=
  s.Queued k → ∀ j, s.Queued j → s.sequence k ≤ s.sequence j

/-- What a scan knows about the slots it has behind it: their queued batches come no earlier than its
candidate, and the candidate is still the batch it has seen. -/
structure Scanned (rest : List κ) (candidate : Option (κ × ℕ)) : Prop where
  chosen : ∀ c ∈ candidate, (s.slots c.1).state ≠ .reserved ∧ s.sequence c.1 = c.2
  least : ∀ j, s.Queued j → j ∈ rest ∨ ∃ c ∈ candidate, c.2 ≤ s.sequence j

/-- What the lane knows at each point. -/
def LanePlace : BatchPc κ → Prop
  | .scanning rest candidate => Scanned s rest candidate
  | .sighted k rest candidate => (s.slots k).state ≠ .reserved ∧ Scanned s (k :: rest) candidate
  | .preferred k rest =>
    (s.slots k).state ≠ .reserved ∧ ∀ j, s.Queued j → j ∈ rest ∨ s.sequence k ≤ s.sequence j
  | .checking k index =>
    (s.slots k).state ≠ .reserved ∧ s.First k ∧ ∀ w ∈ (s.waits k).take index, s.reached w = true
  | .comparing k index point =>
    (s.slots k).state ≠ .reserved ∧ s.First k ∧
      (∀ w ∈ (s.waits k).take index, s.reached w = true) ∧ (s.waits k)[index]? = some point
  | .claiming k =>
    (s.slots k).state ≠ .reserved ∧ s.First k ∧ ∀ w ∈ s.waits k, s.reached w = true
  | _ => True

structure LaneServes : Prop where
  locked : ∀ t, (s.pcs (.caller t)).InSubmit → s.admission = true
  one : ∀ t t', (s.pcs (.caller t)).InSubmit → (s.pcs (.caller t')).InSubmit → t = t'
  filled : ∀ t k, s.pcs (.caller t) = .filled k ∨ s.pcs (.caller t) = .counted k →
    s.sequence k < s.nextSequence ∧ ∀ b ∈ s.accepted, b.sequence < s.sequence k
  queued : ∀ k, s.Queued k → (s.slots k).batch ∈ s.accepted
  distinct : ∀ j k, s.Queued j → s.Queued k → s.sequence j = s.sequence k → j = k
  numbered : ∀ b ∈ s.accepted, b.sequence < s.nextSequence
  accepted : s.accepted.Pairwise fun first second => first.sequence < second.sequence
  known : ∀ b ∈ s.handed, b ∈ s.accepted
  before : ∀ b ∈ s.handed, ∀ k, s.Queued k → b.sequence < s.sequence k
  handed : s.handed.Pairwise fun first second => first.sequence < second.sequence
  lane : LanePlace s (s.pcs .lane)

/-- A step that accepts, chooses and hands over nothing. -/
structure Quiet (s s' : BatchManager κ τ) : Prop where
  batch : ∀ k, (s'.slots k).batch = (s.slots k).batch
  queued : ∀ k, s'.Queued k → s.Queued k
  reserved : ∀ k, (s'.slots k).state = .reserved → (s.slots k).state = .reserved
  completed : ∀ i, s.completed i ≤ s'.completed i
  admission : s'.admission = s.admission
  nextSequence : s'.nextSequence = s.nextSequence
  accepted : s'.accepted = s.accepted
  handed : s'.handed = s.handed
  callers : ∀ t, (s'.pcs (.caller t)).InSubmit → s'.pcs (.caller t) = s.pcs (.caller t)
  lane : s'.pcs .lane = s.pcs .lane ∨ LanePlace s' (s'.pcs .lane)

attribute [simp] BatchManager.setSlot BatchManager.setPc BatchManager.setState

theorem LanePlace.quiet {s s' : BatchManager κ τ}
    (batch : ∀ k, (s.slots k).state ≠ .reserved → (s'.slots k).batch = (s.slots k).batch)
    (queued : ∀ k, s'.Queued k → s.Queued k)
    (reserved : ∀ k ∈ (s.pcs .lane).regards, (s'.slots k).state = .reserved →
      (s.slots k).state = .reserved)
    (completed : ∀ i, s.completed i ≤ s'.completed i) (h : LanePlace s (s.pcs .lane)) :
    LanePlace s' (s.pcs .lane) := by
  have unreserved (k : κ) (q : s'.Queued k) : (s.slots k).state ≠ .reserved := by
    rw [show (s.slots k).state = .queued from queued k q]
    simp
  have same (k : κ) (kept : (s.slots k).state ≠ .reserved) : s'.sequence k = s.sequence k := by
    rw [BatchManager.sequence, batch k kept]
    rfl
  have sequence (k : κ) (q : s'.Queued k) : s'.sequence k = s.sequence k := same k (unreserved k q)
  have first (k : κ) (h : s.First k) : s'.First k := by
    intro qk j qj
    rw [sequence k qk, sequence j qj]
    exact h (queued k qk) j (queued j qj)
  have reached (w : TimelinePoint) (r : s.reached w = true) : s'.reached w = true := by
    simp only [reached, decide_eq_true_eq] at r ⊢
    exact r.trans (completed w.timeline)
  have scanned {rest : List κ} {candidate : Option (κ × ℕ)} (h : Scanned s rest candidate)
      (kept : ∀ k ∈ candidate.map Prod.fst, (s'.slots k).state = .reserved →
        (s.slots k).state = .reserved) : Scanned s' rest candidate := by
    refine ⟨fun c member => ?_, fun j q => ?_⟩
    · obtain ⟨chosen, number⟩ := h.chosen c member
      refine ⟨fun now => chosen (kept c.1 (Option.mem_map_of_mem _ member) now), ?_⟩
      rw [same c.1 chosen, number]
    · rw [sequence j q]
      exact h.least j (queued j q)
  revert h reserved
  cases s.pcs .lane with
  | scanning rest candidate =>
    intro reserved h
    exact scanned h fun k member => reserved k (by simpa [BatchPc.regards] using member)
  | sighted k rest candidate =>
    rintro reserved ⟨chosen, h⟩
    refine ⟨fun now => chosen (reserved k mem_cons_self now), scanned h fun k member => ?_⟩
    exact reserved k (mem_cons_of_mem _ (by simpa using member))
  | preferred k rest =>
    rintro reserved ⟨chosen, least⟩
    refine ⟨fun now => chosen (reserved k mem_cons_self now), fun j q => ?_⟩
    rw [same k chosen, sequence j q]
    exact least j (queued j q)
  | checking k index | claiming k =>
    intro reserved ⟨chosen, least, checked⟩
    refine ⟨fun now => chosen (reserved k mem_cons_self now), first k least, fun w member => ?_⟩
    rw [waits, batch k chosen] at member
    exact reached w (checked w member)
  | comparing k index point =>
    intro reserved ⟨chosen, least, checked, found⟩
    rw [waits, ← batch k chosen] at checked found
    exact ⟨fun now => chosen (reserved k mem_cons_self now), first k least,
      fun w member => reached w (checked w member), found⟩
  | _ => exact fun _ _ => trivial

/-- A step that accepts and hands over nothing, with what the callers and the lane know after it. -/
theorem LaneServes.keep {s s' : BatchManager κ τ} (h : LaneServes s)
    (locked : ∀ t, (s'.pcs (.caller t)).InSubmit → s'.admission = true)
    (one : ∀ t t', (s'.pcs (.caller t)).InSubmit → (s'.pcs (.caller t')).InSubmit → t = t')
    (filled : ∀ t k, s'.pcs (.caller t) = .filled k ∨ s'.pcs (.caller t) = .counted k →
      s.pcs (.caller t) = .filled k ∨ s.pcs (.caller t) = .counted k)
    (batch : ∀ k, (s'.slots k).batch = (s.slots k).batch) (queued : ∀ k, s'.Queued k → s.Queued k)
    (nextSequence : s'.nextSequence = s.nextSequence) (accepted : s'.accepted = s.accepted)
    (handed : s'.handed = s.handed) (lane : LanePlace s' (s'.pcs .lane)) : LaneServes s' := by
  have sequence (k : κ) : s'.sequence k = s.sequence k := congrArg DeviceBatch.sequence (batch k)
  refine ⟨locked, one, fun t k place => ?_, fun k q => ?_, fun j k first second same => ?_, ?_, ?_, ?_,
    fun b member k q => ?_, handed ▸ h.handed, lane⟩
  · rw [sequence, nextSequence, accepted]
    exact h.filled t k (filled t k place)
  · rw [batch, accepted]
    exact h.queued k (queued k q)
  · rw [sequence, sequence] at same
    exact h.distinct j k (queued j first) (queued k second) same
  · rw [accepted, nextSequence]
    exact h.numbered
  · rw [accepted]
    exact h.accepted
  · rw [handed, accepted]
    exact h.known
  · rw [handed] at member
    rw [sequence]
    exact h.before b member k (queued k q)

theorem LaneServes.quiet {s s' : BatchManager κ τ} (h : LaneServes s) (q : Quiet s s') :
    LaneServes s' := by
  refine h.keep (fun t inside => ?_) (fun t t' inside inside' => ?_) (fun t k place => ?_) q.batch
    q.queued q.nextSequence q.accepted q.handed ?_
  · rw [q.callers t inside] at inside
    rw [q.admission]
    exact h.locked t inside
  · rw [q.callers t inside] at inside
    rw [q.callers t' inside'] at inside'
    exact h.one t t' inside inside'
  · have inside : (s'.pcs (.caller t)).InSubmit := by
      rcases place with place | place <;> rw [place] <;> trivial
    rwa [q.callers t inside] at place
  · rcases q.lane with same | place
    · rw [same]
      exact h.lane.quiet (fun k _ => q.batch k) q.queued (fun k _ => q.reserved k) q.completed
    · exact place

end Invariant

section Steps

variable {s s' : BatchManager κ τ} {pc : BatchPc κ} {x : BatchParty τ} {k : κ}

theorem BatchManager.le_signal (point : TimelinePoint) (i : ℕ) :
    s.completed i ≤ s.signal point i := by
  simp only [signal, update_apply]
  split
  next same => exact same ▸ le_max_left _ _
  next => exact le_rfl

namespace Scanned

variable {rest : List κ} {candidate : Option (κ × ℕ)}

/-- A slot that is not queued, or whose number is no better, is left behind. -/
theorem skip (h : Scanned s (k :: rest) candidate)
    (worse : s.Queued k → ∃ c ∈ candidate, c.2 ≤ s.sequence k) : Scanned s rest candidate := by
  refine ⟨h.chosen, fun j queued => ?_⟩
  rcases h.least j queued with member | better
  · rcases mem_cons.mp member with rfl | later
    · exact .inr (worse queued)
    · exact .inl later
  · exact .inr better

/-- A slot with a better number comes before all that the scan has behind it. -/
theorem prefer (h : Scanned s (k :: rest) candidate) (less : ∀ c ∈ candidate, s.sequence k < c.2)
    (j : κ) (queued : s.Queued j) : j ∈ rest ∨ s.sequence k ≤ s.sequence j := by
  rcases h.least j queued with member | ⟨c, chosen, least⟩
  · rcases mem_cons.mp member with rfl | later
    · exact .inr le_rfl
    · exact .inl later
  · exact .inr ((less c chosen).le.trans least)

end Scanned

section Kinds

variable {allSlots : List κ} {action : BatchAction κ τ} {old pc : BatchPc κ}

/-- By a mere move only a caller that searches for a slot stays inside `submit_batch`. -/
theorem BatchMove.outside (moves : BatchMove allSlots s action old pc) :
    ¬pc.InSubmit ∨ ∃ t slots, action.party = .caller t ∧ old = .searching slots ∧
      (pc = .unlocking ∨ ∃ rest, pc = .searching rest) := by
  cases moves with
  | pass => exact .inr ⟨_, _, rfl, rfl, .inr ⟨_, rfl⟩⟩
  | refused => exact .inr ⟨_, _, rfl, rfl, .inl rfl⟩
  | expire next => rcases next with ⟨rfl, -⟩ | ⟨rfl, -⟩ <;> exact .inl fun inside => inside
  | @retry k reason =>
    left
    cases reason <;> simp only [BatchManager.retry] <;> (try split) <;> exact fun inside => inside
  | rejectedLost next | acceptedLost next =>
    rcases next with rfl | rfl <;> exact .inl fun inside => inside
  | _ => exact .inl fun inside => inside

/-- What the lane knows after a move follows from what it knew. -/
theorem BatchMove.lanePlace (complete : ∀ k, k ∈ allSlots) (lane : action.party = .lane)
    (h : LanePlace s old) (moves : BatchMove allSlots s action old pc) : LanePlace s pc := by
  cases moves with
  | scan => exact ⟨by simp, fun k _ => .inl (complete k)⟩
  | sight queued => exact ⟨by simp [queued], h⟩
  | skip other => exact h.skip fun queued => absurd queued other
  | prefer less => exact ⟨h.1, h.2.prefer less⟩
  | dismiss more =>
    push Not at more
    exact h.2.skip fun _ => more
  | note =>
    obtain ⟨chosen, least⟩ := h
    refine ⟨fun c member => ?_, fun j queued => ?_⟩
    · cases member
      exact ⟨chosen, rfl⟩
    · exact (least j queued).imp_right fun less => ⟨_, rfl, less⟩
  | choose =>
    obtain ⟨chosen, number⟩ := h.chosen _ rfl
    refine ⟨chosen, fun _ j other => ?_, by simp⟩
    obtain ⟨c, ⟨⟩, least⟩ := (h.least j other).resolve_left not_mem_nil
    exact number.trans_le least
  | @checked _ _ k index done =>
    obtain ⟨chosen, first, checked⟩ := h
    have all : (s.waits k).take index = s.waits k :=
      take_of_length_le (List.getElem?_eq_none_iff.mp done)
    rw [all] at checked
    exact ⟨chosen, first, checked⟩
  | compare found => exact ⟨h.1, h.2.1, h.2.2, found⟩
  | reached ready =>
    obtain ⟨chosen, first, checked, found⟩ := h
    refine ⟨chosen, first, fun w member => ?_⟩
    rw [take_add_one, mem_append, found] at member
    rcases member with before | now
    · exact checked w before
    · obtain rfl : w = _ := by simpa using now
      exact ready
  | expire => cases lane
  | retry => cases lane
  | rejectedLost next | acceptedLost next => rcases next with rfl | rfl <;> trivial
  | _ => trivial

end Kinds

/-- No slot that the lane goes by is the one a caller has reserved. -/
theorem LaneServes.chosen_ne (h : LaneServes s) {j : κ} (chosen : j ∈ (s.pcs .lane).regards)
    (reserved : (s.slots k).state = .reserved) : j ≠ k := by
  rintro rfl
  have place := h.lane
  have other {rest : List κ} {candidate : Option (κ × ℕ)} (known : Scanned s rest candidate)
      (chosen : j ∈ (candidate.map Prod.fst).toList) : False := by
    obtain ⟨c, member, rfl⟩ := Option.map_eq_some_iff.mp (Option.mem_toList.mp chosen)
    exact (known.chosen c member).1 reserved
  revert chosen place
  cases s.pcs .lane with
  | scanning rest candidate => exact fun chosen place => other place chosen
  | sighted i rest candidate =>
    rintro chosen ⟨unreserved, known⟩
    rcases mem_cons.mp chosen with rfl | chosen
    · exact unreserved reserved
    · exact other known chosen
  | preferred i rest | checking i index | comparing i index point | claiming i =>
    intro chosen place
    obtain rfl := mem_singleton.mp chosen
    exact place.1 reserved
  | _ => exact nofun

/-- What is handed over in the order of its numbers is handed over in the order of acceptance. -/
theorem LaneServes.sublist (h : LaneServes s) : s.handed.Sublist s.accepted := by
  have nodup : s.handed.Nodup := h.handed.imp fun less same => (same ▸ less).false
  refine sublist_of_subperm_of_pairwise (r := fun first second => first.sequence < second.sequence)
    ?_ h.handed h.accepted
  exact nodup.subperm h.known

theorem BatchManager.Fresh.laneServes (fresh : s.Fresh) : LaneServes s where
  locked := fun t inside => by simp [fresh.pcs, BatchPc.InSubmit] at inside
  one := fun t _ inside _ => by simp [fresh.pcs, BatchPc.InSubmit] at inside
  filled := fun t k place => by simp [fresh.pcs] at place
  queued := fun k q => by simp [Queued, fresh.slots] at q
  distinct := fun j _ q _ _ => by simp [Queued, fresh.slots] at q
  numbered := by simp [fresh.accepted]
  accepted := by simp [fresh.accepted]
  known := by simp [fresh.handed]
  before := by simp [fresh.handed]
  handed := by simp [fresh.handed]
  lane := by
    rw [fresh.pcs]
    trivial

variable [DecidableEq τ]

/-- The books of acceptance and handover are the same. -/
def SameBooks (s s' : BatchManager κ τ) : Prop :=
  s'.admission = s.admission ∧ s'.nextSequence = s.nextSequence ∧ s'.accepted = s.accepted ∧
    s'.handed = s.handed

theorem Quiet.moved (x : BatchParty τ) (pc : BatchPc κ) (pcs : s'.pcs = update s.pcs x pc)
    (batch : ∀ k, (s'.slots k).batch = (s.slots k).batch)
    (states : ∀ k, (s'.slots k).state = (s.slots k).state ∨
      (s'.slots k).state ≠ .queued ∧ (s'.slots k).state ≠ .reserved)
    (completed : ∀ i, s.completed i ≤ s'.completed i) (books : SameBooks s s')
    (outside : ¬pc.InSubmit) (place : x = .lane → LanePlace s' pc) : Quiet s s' where
  batch := batch
  queued := fun k queued => by
    rcases states k with same | ⟨other, -⟩
    · exact same.symm.trans queued
    · exact absurd queued other
  reserved := fun k reserved => by
    rcases states k with same | ⟨-, other⟩
    · exact same.symm.trans reserved
    · exact absurd reserved other
  completed := completed
  admission := books.1
  nextSequence := books.2.1
  accepted := books.2.2.1
  handed := books.2.2.2
  callers := fun t inside => by
    by_cases same : .caller t = x
    · rw [pcs, same, update_self] at inside
      exact absurd inside outside
    · rw [pcs, update_of_ne same]
  lane := by
    by_cases same : .lane = x
    · rw [pcs, ← same, update_self]
      exact .inr (place same.symm)
    · rw [pcs, update_of_ne same]
      exact .inl rfl

theorem Quiet.setPc (outside : ¬pc.InSubmit) (place : x = .lane → LanePlace (s.setPc x pc) pc) :
    Quiet s (s.setPc x pc) :=
  .moved x pc rfl (fun _ => rfl) (fun _ => .inl rfl) (fun _ => le_rfl) ⟨rfl, rfl, rfl, rfl⟩ outside
    place

/-- Who changes no slot, no timeline beyond a signal and none of the books. -/
theorem Quiet.same (pcs : s'.pcs = update s.pcs x pc) (slots : s'.slots = s.slots)
    (completed : ∀ i, s.completed i ≤ s'.completed i) (books : SameBooks s s')
    (outside : ¬pc.InSubmit) (place : x = .lane → LanePlace s' pc) :
    Quiet s s' :=
  .moved x pc pcs (fun _ => by rw [slots]) (fun _ => .inl (by rw [slots])) completed books outside
    place

/-- What the lane knows does not depend on where the parties are. -/
theorem LanePlace.of_setPc {pc' : BatchPc κ} (h : LanePlace s pc') :
    LanePlace (s.setPc x pc) pc' := by
  cases pc' with
  | scanning => exact ⟨h.1, h.2⟩
  | sighted => exact ⟨h.1, h.2.1, h.2.2⟩
  | _ => exact h

variable [DecidableEq κ]

/-- A slot gets another state than queued or reserved and keeps its batch. -/
theorem Quiet.setSlot (x : BatchParty τ) (pc : BatchPc κ) {slot : BatchSlot}
    (pcs : s'.pcs = update s.pcs x pc) (slots : s'.slots = update s.slots k slot)
    (batch : slot.batch = (s.slots k).batch)
    (state : slot.state = (s.slots k).state ∨ slot.state ≠ .queued ∧ slot.state ≠ .reserved)
    (completed : s'.completed = s.completed) (books : SameBooks s s') (outside : ¬pc.InSubmit)
    (place : x = .lane → LanePlace s' pc) : Quiet s s' := by
  refine .moved x pc pcs (fun j => ?_) (fun j => ?_) (fun i => by rw [completed]) books outside place
  · by_cases same : j = k
    · subst same
      rw [slots, update_self, batch]
    · rw [slots, update_of_ne same]
  · by_cases same : j = k
    · subst same
      rw [slots, update_self]
      exact state
    · rw [slots, update_of_ne same]
      exact .inl rfl

/-- The batch that the lane claims comes after those handed over and before those still queued. -/
theorem LaneServes.claim (h : LaneServes s) (here : s.pcs .lane = .claiming k)
    (queued : s.Queued k) :
    LaneServes { (s.setState k .submitting).setPc .lane (.calling k) with
      handed := s.handed ++ [(s.slots k).batch] } := by
  have place := h.lane
  rw [here] at place
  generalize made : (s.setState k .submitting).setPc .lane (.calling k) = s₁
  have slots : s₁.slots = update s.slots k { s.slots k with state := .submitting } := by
    rw [← made]
    rfl
  have claimed : LaneServes s₁ := by
    rw [← made]
    exact h.quiet (.setSlot .lane (.calling k) rfl rfl rfl (.inr (by simp)) rfl
      ⟨rfl, rfl, rfl, rfl⟩ (fun inside => inside) fun _ => trivial)
  have still (j : κ) (q : s₁.Queued j) : s.sequence k < s₁.sequence j := by
    have ne : j ≠ k := by
      rintro rfl
      simp [Queued, slots] at q
    rw [Queued, update_off slots ne] at q
    have number : s₁.sequence j = s.sequence j :=
      congrArg (fun slot => slot.batch.sequence) (update_off slots ne)
    rw [number]
    refine lt_of_le_of_ne (place.2.1 queued j q) fun same => ne ?_
    exact (h.distinct k j queued q same).symm
  have lists : s₁.handed = s.handed ∧ s₁.accepted = s.accepted := by
    rw [← made]
    exact ⟨rfl, rfl⟩
  rw [← lists.1]
  exact { claimed with
    known := forall_mem_concat.mpr ⟨claimed.known, lists.2 ▸ h.queued k queued⟩
    before := forall_mem_concat.mpr ⟨claimed.before, still⟩
    handed := pairwise_concat.mpr ⟨claimed.handed, fun b member =>
      h.before b (lists.1 ▸ member) k queued⟩
    lane := by
      rw [show s₁.pcs .lane = .calling k by simp [← made]]
      trivial }

/-- What a caller of `submit_batch` leaves alone: it does not reserve a slot that the lane goes by,
and it does not publish while the lane scans. -/
def BatchManager.SparesLane (s : BatchManager κ τ) (t : τ) : Prop :=
  match s.pcs (.caller t) with
  | .searching (k :: _) => (s.slots k).state = .free → k ∉ (s.pcs .lane).regards
  | .counted _ => (s.pcs .lane).scans = false
  | _ => True

/-- The condition under which the lane works: a slot it goes by is not reserved for another batch
before it claims it, nothing is published while it scans, and releases keep their rule. -/
def BatchManager.LaneUndisturbed (s : BatchManager κ τ) : BatchAction κ τ → Prop
  | .submit t _ => s.SparesLane t
  | action => s.Disciplined action

variable {t : τ}

namespace LaneServes

section Submit

variable (h : LaneServes s) (alone : ∀ t', (s.pcs (.caller t')).InSubmit → t' = t)

include h alone

omit h [DecidableEq κ] in
/-- After a move of the only caller inside `submit_batch` nobody else is inside. -/
theorem inside_eq (pcs : s'.pcs = update s.pcs (.caller t) pc) (t' : τ)
    (here : (s'.pcs (.caller t')).InSubmit) : t' = t := by
  by_contra other
  rw [pcs, update_of_ne (by simpa using other)] at here
  exact other (alone t' here)

omit [DecidableEq κ] in
/-- A caller moves inside `submit_batch`. -/
theorem submitMove (pcs : s'.pcs = update s.pcs (.caller t) pc) (admission : s'.admission = true)
    (filled : ∀ k, pc = .filled k ∨ pc = .counted k →
      s'.sequence k < s'.nextSequence ∧ ∀ b ∈ s'.accepted, b.sequence < s'.sequence k)
    (queued : ∀ k, s'.Queued k → (s'.slots k).batch ∈ s'.accepted)
    (distinct : ∀ j k, s'.Queued j → s'.Queued k → s'.sequence j = s'.sequence k → j = k)
    (numbered : ∀ b ∈ s'.accepted, b.sequence < s'.nextSequence)
    (accepted : s'.accepted.Pairwise fun first second => first.sequence < second.sequence)
    (known : ∀ b ∈ s.handed, b ∈ s'.accepted) (handed : s'.handed = s.handed)
    (before : ∀ b ∈ s.handed, ∀ k, s'.Queued k → b.sequence < s'.sequence k)
    (lane : LanePlace s' (s.pcs .lane)) : LaneServes s' := by
  have inside := inside_eq alone pcs
  refine ⟨fun _ _ => admission, fun t₁ t₂ first second => (inside t₁ first).trans
    (inside t₂ second).symm, fun t' k place => ?_, queued, distinct, numbered, accepted, ?_, ?_, ?_,
    ?_⟩
  · have here : t' = t := inside t' (by rcases place with place | place <;> rw [place] <;> trivial)
    subst here
    rw [pcs, update_self] at place
    exact filled k place
  · rw [handed]
    exact known
  · rw [handed]
    exact before
  · rw [handed]
    exact h.handed
  · rw [pcs, update_of_ne (by simp)]
    exact lane

omit [DecidableEq κ] in
/-- A caller moves inside `submit_batch` and accepts nothing yet. -/
theorem submitKeep (pcs : s'.pcs = update s.pcs (.caller t) pc) (admission : s'.admission = true)
    (filled : ∀ k, pc = .filled k ∨ pc = .counted k → s.pcs (.caller t) = .filled k)
    (batch : ∀ k, (s'.slots k).batch = (s.slots k).batch) (queued : ∀ k, s'.Queued k → s.Queued k)
    (reserved : ∀ k ∈ (s.pcs .lane).regards, (s'.slots k).state = .reserved →
      (s.slots k).state = .reserved) (completed : s'.completed = s.completed)
    (nextSequence : s'.nextSequence = s.nextSequence) (accepted : s'.accepted = s.accepted)
    (handed : s'.handed = s.handed) : LaneServes s' := by
  have inside := inside_eq alone pcs
  refine h.keep (fun _ _ => admission) (fun t₁ t₂ first second => (inside t₁ first).trans
    (inside t₂ second).symm) (fun t' k place => ?_) batch queued nextSequence accepted handed ?_
  · obtain rfl := inside t' (by rcases place with place | place <;> rw [place] <;> trivial)
    rw [pcs, update_self] at place
    exact .inl (filled k place)
  · rw [pcs, update_of_ne (by simp)]
    exact h.lane.quiet (fun k _ => batch k) queued reserved (fun i => by rw [completed])

theorem fill {request : BatchRequest} {skipped : ℕ} (locked : s.admission = true)
    (reserved : (s.slots k).state = .reserved) :
    LaneServes ((s.fill k request skipped).setPc (.caller t) (.filled k)) := by
  generalize made : (s.fill k request skipped).setPc (.caller t) (.filled k) = s'
  have own : s'.slots k = s.fillSlot k request skipped := by
    simp [← made, BatchManager.fill]
  have other (j : κ) (ne : j ≠ k) : s'.slots j = s.slots j := by
    simp [← made, BatchManager.fill, ne]
  have queued (j : κ) (q : s'.Queued j) : j ≠ k ∧ s.Queued j := by
    by_cases same : j = k
    · subst same
      rw [Queued, own] at q
      simp [fillSlot, reserved] at q
    · refine ⟨same, ?_⟩
      rwa [Queued, other j same] at q
  have sequence (j : κ) (ne : j ≠ k) : s'.sequence j = s.sequence j := by
    rw [BatchManager.sequence, other j ne]
    rfl
  have next : s'.nextSequence = s.nextSequence + 1 := by rw [← made]; rfl
  have accepted : s'.accepted = s.accepted := by rw [← made]; rfl
  refine h.submitMove alone (by rw [← made]; rfl) (by rw [← made]; exact locked)
    (fun j place => ?_) (fun j q => ?_) (fun i j first second same => ?_) (fun b member => ?_)
    (by rw [accepted]; exact h.accepted) (by rw [accepted]; exact h.known)
    (by rw [← made]; rfl) (fun b member j q => ?_) ?_
  · obtain rfl : k = j := by simpa using place
    have number : s'.sequence k = s.nextSequence := by rw [BatchManager.sequence, own]; rfl
    rw [number, next, accepted]
    exact ⟨Nat.lt_succ_self _, h.numbered⟩
  · obtain ⟨ne, before⟩ := queued j q
    rw [other j ne, accepted]
    exact h.queued j before
  · obtain ⟨ne, before⟩ := queued i first
    obtain ⟨ne', before'⟩ := queued j second
    rw [sequence i ne, sequence j ne'] at same
    exact h.distinct i j before before' same
  · rw [accepted] at member
    rw [next]
    exact (h.numbered b member).trans (Nat.lt_succ_self _)
  · obtain ⟨ne, before⟩ := queued j q
    rw [sequence j ne]
    exact h.before b member j before
  · refine h.lane.quiet (fun j unreserved => ?_) (fun j q => (queued j q).2)
      (fun j chosen now => ?_) (fun i => by rw [← made]; rfl)
    · rw [other j fun same => unreserved (same ▸ reserved)]
    · rwa [other j (h.chosen_ne chosen reserved)] at now

theorem publish (locked : s.admission = true) (here : s.pcs (.caller t) = .counted k)
    (reserved : (s.slots k).state = .reserved) (quiet : (s.pcs .lane).scans = false) :
    LaneServes { (s.setState k .queued).setPc (.caller t) .unlocking with
      accepted := s.accepted ++ [(s.slots k).batch] } := by
  generalize made : ({ (s.setState k .queued).setPc (.caller t) .unlocking with
      accepted := s.accepted ++ [(s.slots k).batch] } : BatchManager κ τ) = s'
  obtain ⟨numbered, newest⟩ := h.filled t k (.inr here)
  have other (j : κ) (ne : j ≠ k) : s'.slots j = s.slots j := by
    simp [← made, ne]
  have batch (j : κ) : (s'.slots j).batch = (s.slots j).batch := by
    by_cases same : j = k
    · subst same
      simp [← made]
    · rw [other j same]
  have sequence (j : κ) : s'.sequence j = s.sequence j := by
    rw [BatchManager.sequence, batch j]
    rfl
  have queued (j : κ) (q : s'.Queued j) : j = k ∨ s.Queued j := by
    by_cases same : j = k
    · exact .inl same
    · right
      rwa [Queued, other j same] at q
  have accepted : s'.accepted = s.accepted ++ [(s.slots k).batch] := by rw [← made]
  have next : s'.nextSequence = s.nextSequence := by rw [← made]; rfl
  have older (j : κ) (q : s.Queued j) : s.sequence j < s.sequence k := newest _ (h.queued j q)
  refine h.submitMove alone (by rw [← made]; rfl)
    (by rw [← made]; exact locked) (fun j place => by simp at place) (fun j q => ?_)
    (fun i j first second same => ?_) ?_ ?_ (fun b member => ?_)
    (by rw [← made]; rfl) (fun b member j q => ?_) ?_
  · rw [batch, accepted]
    rcases queued j q with rfl | before
    · simp
    · exact mem_append_left _ (h.queued j before)
  · rw [sequence, sequence] at same
    rcases queued i first with rfl | before <;> rcases queued j second with rfl | before'
    · rfl
    · exact absurd same (older j before').ne'
    · exact absurd same (older i before).ne
    · exact h.distinct i j before before' same
  · rw [accepted, next]
    exact forall_mem_concat.mpr ⟨h.numbered, numbered⟩
  · rw [accepted]
    exact pairwise_concat.mpr ⟨h.accepted, newest⟩
  · rw [accepted]
    exact mem_append_left _ (h.known b member)
  · rw [sequence]
    rcases queued j q with rfl | before
    · exact newest b (h.known b member)
    · exact h.before b member j before
  · -- the lane has chosen another slot, whose batch stays ahead of the new one
    have place := h.lane
    have first (j : κ) (ne : j ≠ k) (least : s.First j) : s'.First j := by
      intro q i q'
      rw [sequence, sequence]
      have before := (queued j q).resolve_left ne
      rcases queued i q' with rfl | before'
      · exact (older j before).le
      · exact least before i before'
    have chosen_ne (j : κ) (chosen : j ∈ (s.pcs .lane).regards) : j ≠ k :=
      h.chosen_ne chosen reserved
    have reached (w : TimelinePoint) : s'.reached w = s.reached w := by rw [← made]; rfl
    revert place chosen_ne quiet
    cases s.pcs .lane with
    | scanning | sighted | preferred => exact nofun
    | checking j index | claiming j =>
      intro _ ⟨unreserved, least, checked⟩ chosen_ne
      have ne := chosen_ne j mem_cons_self
      refine ⟨by rwa [other j ne], first j ne least, fun w member => ?_⟩
      rw [reached]
      rw [waits, batch] at member
      exact checked w member
    | comparing j index point =>
      intro _ ⟨unreserved, least, checked, found⟩ chosen_ne
      have ne := chosen_ne j mem_cons_self
      rw [waits, ← batch] at checked found
      exact ⟨by rwa [other j ne], first j ne least,
        fun w member => (reached w).trans (checked w member), found⟩
    | _ => exact fun _ _ _ => trivial

/-- A caller inside `submit_batch` gives a slot another state; if it reserves the slot, the lane has
not chosen it. -/
theorem submitState {state : BatchState} (locked : s.admission = true)
    (unfilled : ∀ k, ¬(pc = .filled k ∨ pc = .counted k)) (unqueued : state ≠ .queued)
    (unchosen : state = .reserved → k ∉ (s.pcs .lane).regards) :
    LaneServes ((s.setState k state).setPc (.caller t) pc) := by
  have own : ((s.setState k state).setPc (.caller t) pc).slots k =
      { s.slots k with state := state } := update_self ..
  have other (j : κ) (ne : j ≠ k) :
      ((s.setState k state).setPc (.caller t) pc).slots j = s.slots j := update_of_ne ne ..
  refine h.submitKeep alone rfl locked (fun j place => absurd place (unfilled j)) (fun j => ?_)
    (fun j q => ?_) (fun j chosen now => ?_) rfl rfl rfl rfl
  · by_cases same : j = k
    · rw [same, own]
    · rw [other j same]
  · by_cases same : j = k
    · rw [Queued, same, own] at q
      exact absurd q unqueued
    · rwa [Queued, other j same] at q
  · by_cases same : j = k
    · rw [same, own] at now
      exact absurd (same ▸ chosen) (unchosen now)
    · rwa [other j same] at now

omit [DecidableEq κ] in
theorem unlock : LaneServes { s.setPc (.caller t) .idle with admission := false } := by
  have nobody (t' : τ) : ¬((s.setPc (.caller t) .idle).pcs (.caller t')).InSubmit := by
    intro other
    rcases update_cases (P := BatchPc.InSubmit) other with ⟨-, new⟩ | ⟨ne, old⟩
    · exact new
    · exact ne (by rw [alone t' old])
  refine ⟨fun t' other => absurd other (nobody t'), fun t' _ other _ => absurd other (nobody t'),
    fun t' k place => ?_, h.queued, h.distinct, h.numbered, h.accepted, h.known, h.before,
    h.handed, ?_⟩
  · refine absurd ?_ (nobody t')
    have place' : (s.setPc (.caller t) .idle).pcs (.caller t') = .filled k ∨
      (s.setPc (.caller t) .idle).pcs (.caller t') = .counted k := place
    rcases place' with place' | place' <;> rw [place'] <;> trivial
  · exact LanePlace.quiet (s := s) (fun _ _ => rfl) (fun _ q => q) (fun _ _ r => r)
      (fun _ => le_rfl) h.lane

end Submit

theorem act {allSlots : List κ} {action : BatchAction κ τ} (h : LaneServes s)
    (exclusive : Exclusive s) (complete : ∀ k, k ∈ allSlots)
    (undisturbed : s.LaneUndisturbed action) (stepped : s.act allSlots action = some s') :
    LaneServes s' := by
  have inside {t : τ} {pc : BatchPc κ} (here : s.pcs (.caller t) = pc) (submits : pc.InSubmit) :
      s.admission = true ∧ ∀ t', (s.pcs (.caller t')).InSubmit → t' = t :=
    ⟨h.locked t (here ▸ submits), fun t' other => h.one t' t other (here ▸ submits)⟩
  cases act_cases stepped with
  | move place moves =>
    rcases moves.outside with outside | ⟨t, slots, party, rfl, inside'⟩
    · refine h.quiet (.setPc outside fun lane => .of_setPc ?_)
      refine moves.lanePlace complete lane ?_
      rw [← place, lane]
      exact h.lane
    · rw [party] at place ⊢
      obtain ⟨locked, alone⟩ := inside place trivial
      refine h.submitKeep alone rfl locked (fun k filled => ?_) (fun _ => rfl) (fun _ q => q)
        (fun _ _ r => r) rfl rfl rfl rfl
      rcases inside' with rfl | ⟨rest, rfl⟩ <;> simp at filled
  | @swap _ _ k _ _ _ place swaps found =>
    cases swaps with
    | reserve =>
      obtain ⟨locked, alone⟩ := inside place trivial
      refine h.submitState alone locked (by simp) (by simp) fun _ => ?_
      have here : s.pcs (.caller _) = .searching (k :: _) := place
      simp only [LaneUndisturbed, SparesLane, here] at undisturbed
      exact undisturbed found
    | @claim _ _ reason =>
      refine h.quiet (.setSlot .service _ rfl rfl rfl (.inr (by simp)) rfl ⟨rfl, rfl, rfl, rfl⟩ ?_
        (by simp))
      cases reason <;> simp only [claimed] <;> (try split) <;>
        exact fun inside => inside
    | @timeout _ state rate =>
      refine h.quiet (.setSlot .service _ rfl rfl rfl (.inr ?_) rfl ⟨rfl, rfl, rfl, rfl⟩ ?_ (by simp))
      · cases rate <;> simp [timeoutTarget]
      · unfold timedOut
        split <;> exact fun inside => inside
    | _ =>
      exact h.quiet (.setSlot _ _ rfl rfl rfl (.inr (by simp)) rfl ⟨rfl, rfl, rfl, rfl⟩
        (fun inside => inside) fun _ => trivial)
  | lock place unlocked =>
    refine h.submitKeep (fun t' other => ?_) rfl rfl (by simp) (fun _ => rfl) (fun _ q => q)
      (fun _ _ r => r) rfl rfl rfl rfl
    rw [h.locked t' other] at unlocked
    cases unlocked
  | unreserve place =>
    obtain ⟨locked, alone⟩ := inside place trivial
    exact h.submitState alone locked (by simp) (by simp) (by simp)
  | fill request place =>
    obtain ⟨locked, alone⟩ := inside place trivial
    exact h.fill alone locked (exclusive.state_at place rfl).reserved
  | count place =>
    obtain ⟨locked, alone⟩ := inside place trivial
    refine h.submitKeep alone rfl locked (fun j here => ?_) (fun _ => rfl) (fun _ q => q)
      (fun _ _ r => r) rfl rfl rfl rfl
    obtain rfl : _ = j := by simpa using here
    exact place
  | queue place =>
    obtain ⟨locked, alone⟩ := inside place trivial
    simp only [LaneUndisturbed, SparesLane, place] at undisturbed
    exact h.publish alone locked place (exclusive.state_at place rfl).reserved undisturbed
  | unlock place => exact h.unlock (inside place trivial).2
  | hand place queued => exact h.claim place queued
  | check | uncount | drop | complete =>
    exact h.quiet (.same rfl rfl (fun _ => le_rfl) ⟨rfl, rfl, rfl, rfl⟩ (fun inside => inside)
      fun _ => trivial)
  | signal =>
    exact h.quiet (.same rfl rfl (le_signal _) ⟨rfl, rfl, rfl, rfl⟩
      (fun inside => inside) fun _ => trivial)
  | take | giveBack | settle | free | quarantine =>
    exact h.quiet (.setSlot _ _ rfl rfl rfl (.inr (by simp)) rfl ⟨rfl, rfl, rfl, rfl⟩
      (fun inside => inside) fun _ => trivial)
  | retire =>
    exact h.quiet (.setSlot _ _ rfl rfl rfl (.inl rfl) rfl ⟨rfl, rfl, rfl, rfl⟩
      (fun inside => inside) fun _ => trivial)
  | @write k reason =>
    refine h.quiet (.setSlot .service (.wrote k reason) rfl rfl ?_ (.inl ?_) rfl
      ⟨rfl, rfl, rfl, rfl⟩ (fun inside => inside) (by simp)) <;> cases reason <;> rfl

end LaneServes

end Steps

section Handover

variable [DecidableEq κ] [DecidableEq τ]

omit [DecidableEq κ] [DecidableEq τ] in
theorem BatchManager.LaneUndisturbed.disciplined {s : BatchManager κ τ} {action : BatchAction κ τ}
    (h : s.LaneUndisturbed action) : s.Disciplined action := by
  cases action with
  | submit => trivial
  | _ => exact h

/-- In every run in which nobody reuses a slot that the lane goes by, nobody publishes while it scans,
and releases keep their rule: batches are handed to the vendor in the order in which they were
accepted, and whenever one is, its timelines have reached every wait point of that batch. -/
theorem lane_handover (allSlots : List κ) (complete : ∀ k, k ∈ allSlots)
    (start s : BatchManager κ τ) (actions : List (BatchAction κ τ)) (fresh : start.Fresh)
    (undisturbed : RunMeets (act allSlots) LaneUndisturbed start actions)
    (ran : runActions (act allSlots) start actions = some s) :
    s.handed.Sublist s.accepted ∧
    ∀ action s', s.LaneUndisturbed action → s.act allSlots action = some s' →
      s'.handed = s.handed ∨
      ∃ k, s'.handed = s.handed ++ [(s.slots k).batch] ∧ s.Queued k ∧
        ∀ w ∈ s.waits k, s.reached w = true := by
  have serves : Exclusive s ∧ SawUnclaimed s ∧ LaneServes s :=
    undisturbed.invariant (I := fun s => Exclusive s ∧ SawUnclaimed s ∧ LaneServes s)
      (fun _ _ _ ⟨exclusive, saw, lane⟩ ok stepped => ⟨exclusive.act saw ok.disciplined stepped,
        saw.act stepped, lane.act exclusive complete ok stepped⟩)
      ⟨fresh.exclusive, fresh.sawUnclaimed, fresh.laneServes⟩ ran
  obtain ⟨-, -, lane⟩ := serves
  refine ⟨lane.sublist, fun action s' ok stepped => ?_⟩
  cases act_cases stepped with
  | @hand _ _ k here queued =>
    have place := lane.lane
    rw [here] at place
    exact .inr ⟨k, rfl, queued, place.2.2⟩
  | _ => exact .inl rfl

/-- In every run in which releases keep their rule, no two parties own one slot, what a caller of
`submit_batch` has reserved is reserved, what a party finishes is owned or being quarantined, and what
a ticket holds is owned and nobody's. -/
theorem batch_slots_exclusive (allSlots : List κ) {start s : BatchManager κ τ}
    {actions : List (BatchAction κ τ)} (fresh : start.Fresh)
    (disciplined : RunMeets (act allSlots) Disciplined start actions)
    (ran : runActions (act allSlots) start actions = some s) : Exclusive s := by
  have serves : Exclusive s ∧ SawUnclaimed s :=
    disciplined.invariant (I := fun s => Exclusive s ∧ SawUnclaimed s)
      (fun _ _ _ h ok stepped => ⟨h.1.act h.2 ok stepped, h.2.act stepped⟩)
      ⟨fresh.exclusive, fresh.sawUnclaimed⟩ ran
  exact serves.1

instance decidableDisciplined (s : BatchManager κ τ) :
    (action : BatchAction κ τ) → Decidable (s.Disciplined action)
  | .releaseStep t => inferInstanceAs (Decidable (∀ ticket ∈ s.releaseTakes t, ticket ∈ s.held))
  | .submit _ _ | .wait _ _ | .waitStep _ | .release _ _ | .lane _ _ | .look _ _ | .service
  | .finish _ _ => isTrue trivial

instance decidableSparesLane (s : BatchManager κ τ) (t : τ) : Decidable (s.SparesLane t) := by
  unfold SparesLane
  split <;> infer_instance

instance decidableLaneUndisturbed (s : BatchManager κ τ) :
    (action : BatchAction κ τ) → Decidable (s.LaneUndisturbed action)
  | .submit t _ => decidableSparesLane s t
  | .releaseStep t => decidableDisciplined s (.releaseStep t)
  | .wait _ _ | .waitStep _ | .release _ _ | .lane _ _ | .look _ _ | .service | .finish _ _ =>
    isTrue trivial

end Handover

section Runs

/-- A backend with two slots, two callers and nothing submitted. -/
def twoBatchSlots : BatchManager (Fin 2) Bool where
  slots := fun _ => ⟨.free, ⟨0, 0, ⟨0, [], [], none, false⟩⟩, false, .ok, false, .ok, false⟩
  pcs := fun _ => .idle
  completed := fun _ => 0
  lastAccepted := fun _ => 0
  outstanding := 0
  admission := false
  nextSequence := 0
  nextBatchId := 1
  accepted := []
  handed := []
  settled := []
  completions := []
  freed := []
  held := []

theorem twoBatchSlots_fresh : twoBatchSlots.Fresh :=
  ⟨fun _ => rfl, fun _ => rfl, rfl, rfl, rfl, rfl, rfl, rfl, rfl, rfl⟩

/-- A caller submits a batch, finds its slot after so many others and comes back. -/
def submitRun (t : Bool) (taken : ℕ) (request : BatchRequest) : List (BatchAction (Fin 2) Bool) :=
  List.replicate (6 + taken) (.submit t ⟨some request, 0⟩)

/-- The lane takes a number of steps; no deadline passes and the vendor accepts. -/
def laneRun (count : ℕ) : List (BatchAction (Fin 2) Bool) := List.replicate count (.lane false .ok)

/-- Signals timeline 0. -/
def signalRequest : BatchRequest := ⟨3, [], [⟨0, 5⟩], none, false⟩

/-- Waits for that signal and signals timeline 1. -/
def waitRequest : BatchRequest := ⟨4, [⟨0, 5⟩], [⟨1, 1⟩], none, false⟩

/-- A batch is submitted, handed over and completed, then one that waits for it. -/
def orderlyRun : List (BatchAction (Fin 2) Bool) :=
  submitRun false 0 signalRequest ++ submitRun true 1 waitRequest ++ laneRun 11 ++
    [.look 0 (.completion 1 .ok), .service, .service] ++
    List.replicate 7 (.finish .service false) ++ laneRun 9

theorem orderly_handover :
    ∃ s, runActions (act [0, 1]) twoBatchSlots orderlyRun = some s ∧
      s.handed.map (·.batchId) = [1] ∧ s.handed.Sublist s.accepted ∧
      ∃ s', s.act [0, 1] (.lane false .ok) = some s' ∧ s'.handed.map (·.batchId) = [1, 2] := by
  have facts : (runActions (act [0, 1]) twoBatchSlots orderlyRun).map
      (fun s => (s.handed.map (·.batchId),
        (s.act [0, 1] (.lane false .ok)).map (·.handed.map (·.batchId)))) =
      some ([1], some [1, 2]) := by
    decide +kernel
  obtain ⟨s, ran, values⟩ := Option.map_eq_some_iff.mp facts
  simp only [Prod.mk.injEq, Option.map_eq_some_iff] at values
  exact ⟨s, ran, values.1, (lane_handover [0, 1] (by decide) twoBatchSlots s orderlyRun
    twoBatchSlots_fresh (by decide +kernel) ran).1, values.2⟩

theorem batch_slots_exclusive_orderly :
    ∃ s, runActions (act [0, 1]) twoBatchSlots orderlyRun = some s ∧ Exclusive s := by
  obtain ⟨s, ran⟩ := Option.isSome_iff_exists.mp (by decide +kernel :
    (runActions (act [0, 1]) twoBatchSlots orderlyRun).isSome)
  exact ⟨s, ran, batch_slots_exclusive _ twoBatchSlots_fresh (by decide +kernel) ran⟩

/-- The lane has checked a batch that waits for nothing; a failure of the backend frees its slot, the
slot is reused for a batch that waits, and the lane claims that one. -/
def reusedSlot : List (BatchAction (Fin 2) Bool) :=
  submitRun false 0 signalRequest ++ laneRun 7 ++
    [.look 0 (.failure .deviceError), .service, .service] ++
    List.replicate 6 (.finish .service false) ++ submitRun true 0 waitRequest ++ laneRun 1

/-- The lane has looked at slot 0 when a batch is published there, and then one in slot 1. -/
def overtaken : List (BatchAction (Fin 2) Bool) :=
  laneRun 2 ++ submitRun false 0 signalRequest ++
    submitRun false 1 ⟨5, [], [⟨1, 1⟩], none, false⟩ ++ laneRun 6

/-- In the first run a batch is handed over whose wait point is not reached; in the second the batch
that was accepted second is handed over first. -/
theorem handover_unchecked :
    (runActions (act [0, 1]) twoBatchSlots reusedSlot).map
        (fun s => (s.handed.map (·.request.waits), s.completed 0)) = some ([[⟨0, 5⟩]], 0) ∧
      (runActions (act [0, 1]) twoBatchSlots overtaken).map
        (fun s => (s.accepted.map (·.batchId), s.handed.map (·.batchId))) =
          some ([1, 2], [2]) := by
  constructor <;> decide +kernel

end Runs

end RtRuntime
