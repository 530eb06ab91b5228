import RtRuntime.JobQueue

/-!
# The queue of jobs is a bounded queue

Every cell of the ring serves one position at a time.  The invariant names that position and says
what the sequence number tells about it: equal to the position, the cell waits for its producer or
is being written; one more, it holds the value that was claimed there and nobody has given the
cell back yet.  Two cells are needed for the two readings to differ: with one cell the number that
means "full" for a position means "free" for the next.
-/

namespace RtRuntime

open Function JobQueue

variable {ι τ α : Type*}

section Ring

/-- The cell of position `p` is found by the remainder. -/
structure JobQueue.Ring (q : JobQueue α) : Prop where
  two_le : 2 ≤ q.size
  index_eq : ∀ pos, q.index pos = pos % q.size

theorem JobQueue.ring_of_size {q : JobQueue α} {k : ℕ} (one_le : 1 ≤ k) (word : k ≤ 63)
    (size : q.size = 2 ^ k) : q.Ring := by
  have large : 2 ^ 1 ≤ 2 ^ k := Nat.pow_le_pow_right (by omega) one_le
  have small : 2 ^ k ≤ 2 ^ 63 := Nat.pow_le_pow_right (by omega) word
  refine ⟨by omega, fun pos => ?_⟩
  have mask : q.mask = 2 ^ k - 1 := by
    rw [JobQueue.mask, size]
    omega
  rw [JobQueue.index, mask, size, Nat.and_two_pow_sub_one_eq_mod]

theorem JobQueue.Ring.index_lt {q : JobQueue α} (h : q.Ring) (pos : ℕ) : q.index pos < q.size := by
  rw [h.index_eq]
  exact Nat.mod_lt _ (by have := h.two_le; omega)

/-- Positions of one cell that are less than a lap apart are equal. -/
theorem eq_of_mod_eq {size p r : ℕ} (same : p % size = r % size) (below : p < r + size)
    (above : r < p + size) : p = r := by
  refine Nat.ModEq.eq_of_abs_lt same ?_
  rw [abs_lt]
  omega

end Ring

section Cells

/-- `slot i` is the position that cell `i` serves now. -/
structure CellsServe (q : JobQueue α) (slot : ℕ → ℕ) : Prop where
  ring : q.Ring
  claimed_length : q.history.claimed.length = q.enqueuePos
  ordered : q.dequeuePos ≤ q.enqueuePos
  slot_mod : ∀ i < q.size, slot i % q.size = i
  lower : ∀ i < q.size, q.enqueuePos ≤ slot i + q.size
  upper : ∀ i < q.size, slot i < q.enqueuePos + q.size
  sequence : ∀ i < q.size, (q.cells i).sequence = slot i ∨
    ((q.cells i).sequence = slot i + 1 ∧ slot i < q.enqueuePos ∧
      ∃ v, (q.cells i).data = some v ∧ q.history.claimed[slot i]? = some v)
  waiting : ∀ p, q.dequeuePos ≤ p → p < q.enqueuePos → slot (q.index p) = p
  published : ∀ p < q.dequeuePos, p + 1 ≤ (q.cell p).sequence

/-- The returned calls: a pushed value stays in its cell until it is given back, and a popped
position has been given back. -/
structure ReturnsServe (q : JobQueue α) (slot : ℕ → ℕ) : Prop where
  pushed : ∀ p v, (p, v) ∈ q.history.pushed →
    p < q.enqueuePos ∧ q.history.claimed[p]? = some v ∧
      (slot (q.index p) = p → (q.cell p).sequence = p + 1)
  popped : ∀ p out, (p, out) ∈ q.history.popped →
    p < q.dequeuePos ∧ out = q.history.claimed[p]? ∧ slot (q.index p) ≠ p
  once : (q.history.popped.map Prod.fst).Nodup

/-- A producer owns the cell of `pos` and has not published it. -/
structure Writes (q : JobQueue α) (slot : ℕ → ℕ) (pos : ℕ) (v : α) : Prop where
  claimed : pos < q.enqueuePos
  serves : slot (q.index pos) = pos
  sequence : (q.cell pos).sequence = pos
  value : q.history.claimed[pos]? = some v

/-- A consumer owns the cell of `pos` and has not given it back. -/
structure Reads (q : JobQueue α) (slot : ℕ → ℕ) (pos : ℕ) : Prop where
  taken : pos < q.dequeuePos
  serves : slot (q.index pos) = pos
  sequence : (q.cell pos).sequence = pos + 1

variable {q : JobQueue α} {slot : ℕ → ℕ}

section

variable (h : CellsServe q slot)
include h

theorem CellsServe.slot_index (pos : ℕ) : slot (q.index pos) % q.size = pos % q.size := by
  rw [h.slot_mod _ (h.ring.index_lt pos), h.ring.index_eq]

/-- Every position that was taken had been claimed. -/
theorem CellsServe.taken_le : q.dequeuePos ≤ q.history.claimed.length := by
  rw [h.claimed_length]
  exact h.ordered

theorem Reads.data {pos : ℕ} (reads : Reads q slot pos) :
    ∃ v, (q.cell pos).data = some v ∧ q.history.claimed[pos]? = some v := by
  rcases h.sequence _ (h.ring.index_lt pos) with free | ⟨-, -, v, data, value⟩
  · have := reads.sequence
    have := reads.serves
    simp only [cell] at *
    omega
  · exact ⟨v, data, by rwa [reads.serves] at value⟩

/-- The next producer may write: its cell has been given back for its lap. -/
theorem CellsServe.free (seen : q.enqueuePos ≤ (q.cell q.enqueuePos).sequence) :
    slot (q.index q.enqueuePos) = q.enqueuePos ∧
      (q.cell q.enqueuePos).sequence = q.enqueuePos := by
  have inside := h.ring.index_lt q.enqueuePos
  have two := h.ring.two_le
  have low := h.lower _ inside
  have high := h.upper _ inside
  simp only [cell] at seen ⊢
  -- a cell of the lap before shows at most `enqueuePos - size + 1`
  have lap : q.enqueuePos < slot (q.index q.enqueuePos) + q.size := by
    rcases h.sequence _ inside with same | ⟨more, -⟩ <;> omega
  have serves := eq_of_mod_eq (h.slot_index q.enqueuePos) high lap
  refine ⟨serves, ?_⟩
  rcases h.sequence _ inside with same | ⟨-, claimed, -⟩
  · exact same.trans serves
  · omega

/-- The next consumer may read: the value of its position has been published. -/
theorem CellsServe.full (seen : q.dequeuePos + 1 ≤ (q.cell q.dequeuePos).sequence) :
    q.dequeuePos < q.enqueuePos ∧ slot (q.index q.dequeuePos) = q.dequeuePos ∧
      (q.cell q.dequeuePos).sequence = q.dequeuePos + 1 := by
  have nonempty : q.dequeuePos < q.enqueuePos := by
    by_contra empty
    have same : q.dequeuePos = q.enqueuePos := le_antisymm h.ordered (not_lt.mp empty)
    rw [same] at seen
    have := h.free (by omega)
    omega
  have serves := h.waiting _ le_rfl nonempty
  refine ⟨nonempty, serves, ?_⟩
  simp only [cell] at seen ⊢
  rcases h.sequence _ (h.ring.index_lt q.dequeuePos) with same | ⟨more, -⟩ <;> omega

/-- A push that finds an older number in its cell stands at the end of a queue whose element one
lap back has not been given back. -/
theorem CellsServe.lap_behind {pos : ℕ} (bound : pos ≤ q.enqueuePos)
    (older : (q.cell pos).sequence < pos) :
    pos = q.enqueuePos ∧ slot (q.index pos) + q.size = q.enqueuePos := by
  have inside := h.ring.index_lt pos
  have low := h.lower _ inside
  have behind : slot (q.index pos) < pos := by
    simp only [cell] at older
    rcases h.sequence _ inside with same | ⟨more, -⟩ <;> omega
  have same : (slot (q.index pos) + q.size) % q.size = pos % q.size := by
    rw [Nat.add_mod_right, h.slot_index]
  have lap := eq_of_mod_eq same (by omega) (by omega)
  omega

/-- A pop that finds a smaller number at its position stands at the head, and the push of the
head has not been published. -/
theorem CellsServe.head_unpublished {pos : ℕ} (bound : pos ≤ q.dequeuePos)
    (older : (q.cell pos).sequence < pos + 1) : pos = q.dequeuePos := by
  by_contra other
  have := h.published pos (by omega)
  omega

end

/-- Cells of different positions that are both served are different. -/
theorem index_ne_of_serves {p r : ℕ} (hp : slot (q.index p) = p) (hr : slot (q.index r) = r)
    (ne : p ≠ r) : q.index p ≠ q.index r := fun same => ne (by rw [← hp, same, hr])

end Cells

section Updates

variable (q q' : JobQueue α) (slot : ℕ → ℕ)

/-- What every step on a queue respects: positions and sequence numbers grow, and the values
claimed so far stay. -/
structure Evolves : Prop where
  size : q'.size = q.size
  enqueuePos : q.enqueuePos ≤ q'.enqueuePos
  dequeuePos : q.dequeuePos ≤ q'.dequeuePos
  claimed : ∀ (p : ℕ) (v : α), q.history.claimed[p]? = some v → q'.history.claimed[p]? = some v
  sequence : ∀ i, (q.cells i).sequence ≤ (q'.cells i).sequence

variable {q q' slot}

theorem Evolves.refl : Evolves q q :=
  ⟨rfl, le_rfl, le_rfl, fun _ _ value => value, fun _ => le_rfl⟩

theorem Evolves.index (h : Evolves q q') (pos : ℕ) : q'.index pos = q.index pos := by
  simp only [JobQueue.index, JobQueue.mask, h.size]

/-- The queue after a producer took the next position for `v`. -/
def JobQueue.claim (q : JobQueue α) (v : α) : JobQueue α :=
  { q with
    enqueuePos := q.enqueuePos + 1
    history := { q.history with claimed := q.history.claimed ++ [v] } }

/-- The queue after a producer published `v` at `pos`. -/
def JobQueue.published (q : JobQueue α) (pos : ℕ) (v : α) : JobQueue α :=
  { q.setSequence pos (pos + 1) with
    history := { q.history with pushed := q.history.pushed ++ [(pos, v)] } }

/-- The queue after a consumer gave the cell of `pos` back. -/
def JobQueue.released (q : JobQueue α) (pos : ℕ) (out : Option α) : JobQueue α :=
  { q.setSequence pos (pos + q.size) with
    history := { q.history with popped := q.history.popped ++ [(pos, out)] } }

@[simp] theorem JobQueue.index_published (pos p : ℕ) (v : α) :
    (q.published pos v).index p = q.index p :=
  rfl

@[simp] theorem JobQueue.index_released (pos p : ℕ) (out : Option α) :
    (q.released pos out).index p = q.index p :=
  rfl

theorem JobQueue.cell_published (pos p : ℕ) (v : α) :
    (q.published pos v).cell p =
      if q.index p = q.index pos then { q.cell pos with sequence := pos + 1 } else q.cell p := by
  rw [cell, JobQueue.index_published]
  simp only [JobQueue.published, setSequence, update_apply, cell]

theorem JobQueue.cell_released (pos p : ℕ) (out : Option α) :
    (q.released pos out).cell p =
      if q.index p = q.index pos then { q.cell pos with sequence := pos + q.size }
      else q.cell p := by
  rw [cell, JobQueue.index_released]
  simp only [released, setSequence, update_apply, cell]

theorem JobQueue.claim_evolves (v : α) : Evolves q (q.claim v) where
  size := rfl
  enqueuePos := Nat.le_succ _
  dequeuePos := le_rfl
  claimed p w value := by
    obtain ⟨inside, -⟩ := List.getElem?_eq_some_iff.mp value
    simpa only [JobQueue.claim, List.getElem?_append_left inside] using value
  sequence _ := le_rfl

theorem JobQueue.setData_sequence (pos : ℕ) (data : Option α) (i : ℕ) :
    ((q.setData pos data).cells i).sequence = (q.cells i).sequence := by
  by_cases same : i = q.index pos
  · subst same
    simp [JobQueue.setData, cell]
  · simp [JobQueue.setData, same]

theorem JobQueue.setData_evolves (pos : ℕ) (data : Option α) : Evolves q (q.setData pos data) :=
  { Evolves.refl (q := q) with sequence := fun i => (setData_sequence pos data i).ge }

variable {pos : ℕ}

theorem JobQueue.setSequence_le {sequence : ℕ} (grows : (q.cell pos).sequence ≤ sequence) (i : ℕ) :
    (q.cells i).sequence ≤ ((q.setSequence pos sequence).cells i).sequence := by
  by_cases same : i = q.index pos
  · subst same
    simpa [setSequence, cell] using grows
  · simp [setSequence, same]

theorem Writes.published_evolves {v : α} (h : Writes q slot pos v) :
    Evolves q (q.published pos v) :=
  { Evolves.refl (q := q) with
    sequence := JobQueue.setSequence_le (by rw [h.sequence]; omega) }

theorem Reads.released_evolves (out : Option α) (ring : q.Ring) (h : Reads q slot pos) :
    Evolves q (q.released pos out) :=
  { Evolves.refl (q := q) with
    sequence := JobQueue.setSequence_le (by have := ring.two_le; rw [h.sequence]; omega) }

section

variable (h : CellsServe q slot)
include h

theorem CellsServe.claim (v : α) (seen : q.enqueuePos ≤ (q.cell q.enqueuePos).sequence) :
    CellsServe (q.claim v) slot ∧ Writes (q.claim v) slot q.enqueuePos v := by
  obtain ⟨serves, sequence⟩ := h.free seen
  refine ⟨?_, ?_⟩
  · exact
    { ring := ⟨h.ring.two_le, h.ring.index_eq⟩
      claimed_length := by simp [JobQueue.claim, h.claimed_length]
      ordered := h.ordered.trans (Nat.le_succ _)
      slot_mod := h.slot_mod
      lower := fun i inside => by
        have low := h.lower i inside
        rcases low.lt_or_eq with less | equal
        · exact less
        · -- only the cell of the new position could be exactly one lap behind
          exfalso
          have mod : q.enqueuePos % q.size = i := by
            rw [equal, Nat.add_mod_right, h.slot_mod i inside]
          have same : q.index q.enqueuePos = i := by rw [h.ring.index_eq, mod]
          rw [same] at serves
          have := h.ring.two_le
          omega
      upper := fun i inside => (h.upper i inside).trans (by simp only [JobQueue.claim]; omega)
      sequence := fun i inside => by
        refine (h.sequence i inside).imp_right fun ⟨more, claimed, v', data, value⟩ => ?_
        exact ⟨more, claimed.trans (Nat.lt_succ_self _), v', data,
          (JobQueue.claim_evolves v).claimed _ _ value⟩
      waiting := fun p low high => by
        rcases (Nat.lt_succ_iff_lt_or_eq.mp high) with below | rfl
        · exact h.waiting p low below
        · exact serves
      published := h.published }
  · exact
    { claimed := Nat.lt_succ_self _
      serves := serves
      sequence := sequence
      value := by simp [JobQueue.claim, ← h.claimed_length] }

theorem CellsServe.take (seen : q.dequeuePos + 1 ≤ (q.cell q.dequeuePos).sequence) :
    CellsServe { q with dequeuePos := q.dequeuePos + 1 } slot ∧
      Reads { q with dequeuePos := q.dequeuePos + 1 } slot q.dequeuePos := by
  obtain ⟨nonempty, serves, sequence⟩ := h.full seen
  refine ⟨?_, ⟨Nat.lt_succ_self _, serves, sequence⟩⟩
  exact
    { h with
      ring := ⟨h.ring.two_le, h.ring.index_eq⟩
      ordered := nonempty
      waiting := fun p low high => h.waiting p (Nat.le_of_succ_le low) high
      published := fun p taken => by
        rcases Nat.lt_succ_iff_lt_or_eq.mp taken with before | rfl
        · exact h.published p before
        · exact seen }

theorem CellsServe.setData {v : α} (writes : Writes q slot pos v)
    (data : Option α) : CellsServe (q.setData pos data) slot := by
  refine
    { h with
      ring := ⟨h.ring.two_le, h.ring.index_eq⟩
      sequence := fun i inside => ?_
      published := fun p taken =>
        (h.published p taken).trans ((JobQueue.setData_evolves pos data).sequence _) }
  by_cases same : i = q.index pos
  · subst same
    left
    simpa [JobQueue.setData, writes.serves] using writes.sequence
  · simpa [JobQueue.setData, same] using h.sequence i inside

theorem CellsServe.publish {v : α} (writes : Writes q slot pos v)
    (data : (q.cell pos).data = some v) : CellsServe (q.published pos v) slot := by
  refine
    { h with
      ring := ⟨h.ring.two_le, h.ring.index_eq⟩
      sequence := fun i inside => ?_
      published := fun p taken =>
        (h.published p taken).trans (writes.published_evolves.sequence _) }
  by_cases same : i = q.index pos
  · subst same
    right
    rw [writes.serves]
    refine ⟨?_, writes.claimed, v, ?_, writes.value⟩
    · simp [JobQueue.published, setSequence]
    · simpa [JobQueue.published, setSequence] using data
  · simpa [JobQueue.published, setSequence, same] using h.sequence i inside

/-- Giving a cell back moves it on to the position one lap later. -/
theorem CellsServe.release (reads : Reads q slot pos) (out : Option α) :
    CellsServe (q.released pos out) (update slot (q.index pos) (pos + q.size)) := by
  have claimed : pos < q.enqueuePos := reads.taken.trans_le h.ordered
  have low := h.lower _ (h.ring.index_lt pos)
  rw [reads.serves] at low
  refine
    { h with
      ring := ⟨h.ring.two_le, h.ring.index_eq⟩
      slot_mod := (forall_update_iff slot fun i p => i < q.size → p % q.size = i).mpr
        ⟨fun _ => (Nat.add_mod_right pos q.size).trans (h.ring.index_eq pos).symm,
          fun i _ => h.slot_mod i⟩
      lower := (forall_update_iff slot fun i p => i < q.size → q.enqueuePos ≤ p + q.size).mpr
        ⟨fun _ => low.trans (Nat.le_add_right _ _), fun i _ => h.lower i⟩
      upper := (forall_update_iff slot fun i p => i < q.size → p < q.enqueuePos + q.size).mpr
        ⟨fun _ => Nat.add_lt_add_right claimed _, fun i _ => h.upper i⟩
      sequence := fun i inside => ?_
      waiting := fun p first last => ?_
      published := fun p taken =>
        (h.published p taken).trans ((reads.released_evolves out h.ring).sequence _) }
  · by_cases same : i = q.index pos
    · subst same
      left
      simp [released, setSequence]
    · simpa [released, setSequence, same] using h.sequence i inside
  · have serves := h.waiting p first last
    have ne : p ≠ pos := by
      have := reads.taken
      simp only [released, setSequence] at first
      omega
    rw [JobQueue.index_released, update_of_ne (index_ne_of_serves serves reads.serves ne)]
    exact serves

end

end Updates

section Returns

variable {q : JobQueue α} {slot : ℕ → ℕ}

/-- Steps that return nothing keep what the returned calls promised. -/
theorem ReturnsServe.evolve {q' : JobQueue α} (h : ReturnsServe q slot) (evolves : Evolves q q')
    (sequences : ∀ i, (q'.cells i).sequence = (q.cells i).sequence)
    (pushed : q'.history.pushed = q.history.pushed)
    (popped : q'.history.popped = q.history.popped)
    (claimed : ∀ p < q.dequeuePos, q'.history.claimed[p]? = q.history.claimed[p]?) :
    ReturnsServe q' slot where
  pushed p v member := by
    obtain ⟨inside, value, shown⟩ := h.pushed p v (pushed ▸ member)
    refine ⟨inside.trans_le evolves.enqueuePos, evolves.claimed _ _ value, fun serves => ?_⟩
    rw [evolves.index] at serves
    rw [cell, evolves.index, sequences]
    exact shown serves
  popped p out member := by
    obtain ⟨inside, value, gone⟩ := h.popped p out (popped ▸ member)
    refine ⟨inside.trans_le evolves.dequeuePos, ?_, ?_⟩
    · rw [claimed p inside]
      exact value
    · rwa [evolves.index]
  once := popped ▸ h.once

theorem ReturnsServe.publish (h : ReturnsServe q slot) {pos : ℕ} {v : α}
    (writes : Writes q slot pos v) : ReturnsServe (q.published pos v) slot where
  pushed p w member := by
    rcases List.mem_append.mp member with old | new
    · obtain ⟨inside, value, shown⟩ := h.pushed p w old
      refine ⟨inside, value, fun serves => ?_⟩
      rw [JobQueue.index_published] at serves
      have ne : p ≠ pos := by
        rintro rfl
        have := shown serves
        have := writes.sequence
        omega
      have apart : q.index p ≠ q.index pos := index_ne_of_serves serves writes.serves ne
      rw [JobQueue.cell_published, if_neg apart]
      exact shown serves
    · obtain ⟨rfl, rfl⟩ : p = pos ∧ w = v := by simpa using new
      refine ⟨writes.claimed, writes.value, fun _ => ?_⟩
      rw [JobQueue.cell_published, if_pos rfl]
  popped p out member := by
    rw [JobQueue.index_published]
    exact h.popped p out member
  once := h.once

theorem ReturnsServe.release (h : ReturnsServe q slot) (cells : CellsServe q slot) {pos : ℕ}
    (reads : Reads q slot pos) :
    ReturnsServe (q.released pos q.history.claimed[pos]?)
      (update slot (q.index pos) (pos + q.size)) where
  pushed p w member := by
    obtain ⟨inside, value, shown⟩ := h.pushed p w member
    refine ⟨inside, value, fun serves => ?_⟩
    have two := cells.ring.two_le
    rw [JobQueue.index_released] at serves
    rw [JobQueue.cell_released]
    by_cases same : q.index p = q.index pos
    · -- the cell now serves a position nobody has claimed
      rw [same, update_self] at serves
      have low := cells.lower _ (cells.ring.index_lt pos)
      rw [reads.serves] at low
      have : p < q.enqueuePos := inside
      omega
    · rw [update_of_ne same] at serves
      rw [if_neg same]
      exact shown serves
  popped p out member := by
    have gone : update slot (q.index pos) (pos + q.size) (q.index pos) ≠ pos := by
      have := cells.ring.two_le
      rw [update_self]
      omega
    rcases List.mem_append.mp member with old | new
    · obtain ⟨inside, value, past⟩ := h.popped p out old
      refine ⟨inside, value, ?_⟩
      rw [JobQueue.index_released]
      by_cases same : q.index p = q.index pos
      · have low := cells.lower _ (cells.ring.index_lt pos)
        rw [reads.serves] at low
        rw [same, update_self]
        have := inside.trans_le cells.ordered
        omega
      · rwa [update_of_ne same]
    · obtain ⟨rfl, rfl⟩ : p = pos ∧ out = q.history.claimed[pos]? := by simpa using new
      exact ⟨reads.taken, rfl, by rwa [JobQueue.index_released]⟩
  once := by
    have fresh : pos ∉ q.history.popped.map Prod.fst := by
      intro member
      obtain ⟨⟨p, out⟩, old, rfl⟩ := List.mem_map.mp member
      exact (h.popped p out old).2.2 reads.serves
    change ((q.history.popped ++ [(pos, _)]).map Prod.fst).Nodup
    rw [List.map_append]
    exact h.once.append (List.nodup_singleton pos) (by simpa using fresh)

end Returns

end RtRuntime
