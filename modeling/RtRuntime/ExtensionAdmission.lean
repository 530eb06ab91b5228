import RtRuntime.Interleaving
import Mathlib.Tactic

/-!
# Admission to extension callbacks

A registered extension owns phases, device backends and services.  Each of them has a gate,
`admission`, and a counter of the calls that are inside it, `active_calls`.  One thread stops the
extension: `close_admission` shuts the gates one by one, and `callbacks_quiescent` then reads the
counters one by one until it finds a number other than zero.

Any number of threads call in at the same time, and every access to a gate or to a counter is a step
of its own.  There are three ways in.  `ActiveCall` looks at the gate, counts itself and looks at
the gate again.  The forwarding functions `initialize`, `register_buffer` and `submit` of a backend
look at the gate first and count themselves afterwards, without a second look.  All other functions
only count themselves.
-/

namespace RtRuntime

namespace Admission

/-! ## The ways into an extension -/

/-- What has a gate and a counter of its own. -/
inductive Owner where
  | phase (index : ℕ)
  | backend (index : ℕ)
  | service (index : ℕ)
  deriving DecidableEq, Repr

/-- The forwarding functions of `ExtensionBackendOwner`. -/
inductive BackendMember where
  | getCapabilities
  | initializeBackend
  | registerBuffer
  | unregisterBuffer
  | submit
  | poll
  | cancel
  | getHealth
  | reset
  | shutdown
  deriving DecidableEq, Repr

/-- The calls of `ExtensionServiceOwner`. -/
inductive ServiceMember where
  | initializeService
  | requestStop
  | quiesce
  | shutdown
  | status
  deriving DecidableEq, Repr

/-- A call into the extension. -/
inductive Entry where
  | phase (index : ℕ)
  | backend (index : ℕ) (member : BackendMember)
  | service (index : ℕ) (member : ServiceMember)
  deriving DecidableEq, Repr

/-- How a call treats the gate of its owner. -/
inductive Check where
  /-- `ActiveCall`: before and after it has counted itself. -/
  | twice
  /-- Only before it counts itself. -/
  | once
  | never
  deriving DecidableEq, Repr

namespace Entry

def owner : Entry → Owner
  | phase index => .phase index
  | backend index _ => .backend index
  | service index _ => .service index

def check : Entry → Check
  | phase _ => .twice
  | backend _ .initializeBackend | backend _ .registerBuffer | backend _ .submit => .once
  | backend _ _ => .never
  | service _ .status => .twice
  | service _ _ => .never

/-- The gate has a say in the call. -/
def gated (entry : Entry) : Bool := entry.check ≠ .never

end Entry

/-! ## The machine -/

/-- `admission` and `active_calls` of an owner. -/
structure Gate where
  admission : Bool := true
  activeCalls : BitVec 32 := 0
  deriving DecidableEq, Repr

namespace Gate

/-- `active_calls.fetch_add(1)`. -/
def announce (gate : Gate) : Gate := { gate with activeCalls := gate.activeCalls + 1 }

/-- `active_calls.fetch_sub(1)`. -/
def withdraw (gate : Gate) : Gate := { gate with activeCalls := gate.activeCalls - 1 }

/-- `close`. -/
def close (gate : Gate) : Gate := { gate with admission := false }

end Gate

/-- Where a thread stands in its call. -/
inductive Point where
  | idle
  /-- It has passed the first look at the gate, or needs none, and has not counted itself. -/
  | admitted (entry : Entry)
  /-- It has counted itself and is about to look at the gate again. -/
  | announced (entry : Entry)
  /-- It has found the gate closed and is about to take its count back. -/
  | rejecting (entry : Entry)
  /-- It runs the callback of the extension. -/
  | inside (entry : Entry)
  deriving DecidableEq, Repr

namespace Point

/-- The call that a thread is in. -/
def entry? : Point → Option Entry
  | idle => none
  | admitted entry | announced entry | rejecting entry | inside entry => some entry

/-- The next access of a thread in the call, and where it leaves the thread. -/
def advance (gate : Gate) : Point → Gate × Point
  | idle => (gate, idle)
  | admitted entry =>
    (gate.announce, if entry.check = .twice then announced entry else inside entry)
  | announced entry => (gate, if gate.admission then inside entry else rejecting entry)
  | rejecting _ | inside _ => (gate.withdraw, idle)

/-- The thread is part of the count of an owner. -/
def counted (owner : Owner) : Point → Bool
  | idle | admitted _ => false
  | announced entry | rejecting entry | inside entry => entry.owner = owner

@[simp]
theorem counted_idle (owner : Owner) : idle.counted owner = false := rfl

@[simp]
theorem counted_admitted (owner : Owner) (entry : Entry) :
    (admitted entry).counted owner = false := rfl

/-- The thread will run the callback of an owner whatever happens to the gate. -/
def late (owner : Owner) : Point → Bool
  | admitted entry => entry.check = .once ∧ entry.owner = owner
  | _ => false

/-- The thread runs a callback of an owner to which the gate admitted it. -/
def running (owner : Owner) : Point → Bool
  | inside entry => entry.gated ∧ entry.owner = owner
  | _ => false

end Point

/-- The thread that stops the extension, with the owners it has not come to yet. -/
inductive Closer where
  /-- In `close_admission`. -/
  | closing (rest : List Owner)
  /-- In `callbacks_quiescent`. -/
  | polling (rest : List Owner)
  /-- `callbacks_quiescent` has returned true. -/
  | quiescent
  deriving DecidableEq, Repr

/-- `phase_count`, `backend_count` and `service_count` of a registration. -/
structure Counts where
  phases : ℕ
  backends : ℕ
  services : ℕ
  deriving DecidableEq, Repr

/-- The owners in the order in which both loops visit them. -/
def Counts.owners (counts : Counts) : List Owner :=
  (List.range counts.phases).map .phase ++ (List.range counts.backends).map .backend ++
    (List.range counts.services).map .service

structure State where
  registered : List Owner
  gates : Owner → Gate
  threads : List Point
  closer : Closer

/-- All gates are open, nothing is called and nothing is closed. -/
def start (counts : Counts) (threads : ℕ) : State where
  registered := counts.owners
  gates _ := {}
  threads := List.replicate threads .idle
  closer := .closing counts.owners

inductive Action where
  /-- A thread begins a call: it looks at the gate, unless the call never does. -/
  | enter (thread : ℕ) (entry : Entry)
  /-- A thread makes the next access of its call. -/
  | advance (thread : ℕ)
  /-- The closing thread makes its next access. -/
  | control
  deriving DecidableEq, Repr

namespace State

/-- One thread has moved, and with it the counter of one owner. -/
def move (s : State) (thread : ℕ) (point : Point) (owner : Owner) (gate : Gate) : State :=
  { s with threads := s.threads.set thread point, gates := Function.update s.gates owner gate }

/-- The first look at the gate. -/
def admits (s : State) (entry : Entry) : Bool :=
  entry.check = .never ∨ (s.gates entry.owner).admission

/-- The next access of the closing thread.  A counter other than zero makes `callbacks_quiescent`
return false, and the thread asks again. -/
def control (s : State) : State :=
  match s.closer with
  | .closing [] => { s with closer := .polling s.registered }
  | .closing (owner :: rest) =>
    { s with
      gates := Function.update s.gates owner (s.gates owner).close
      closer := .closing rest }
  | .polling [] => { s with closer := .quiescent }
  | .polling (owner :: rest) =>
    if (s.gates owner).activeCalls ≠ 0 then { s with closer := .polling s.registered }
    else { s with closer := .polling rest }
  | .quiescent => s

end State

def step (s : State) : Action → Option State
  | .enter thread entry =>
    if s.threads[thread]? = some .idle ∧ entry.owner ∈ s.registered then
      some (s.move thread (if s.admits entry then .admitted entry else .idle) entry.owner
        (s.gates entry.owner))
    else none
  | .advance thread => do
    let point ← s.threads[thread]?
    let entry ← point.entry?
    let (gate, next) := point.advance (s.gates entry.owner)
    some (s.move thread next entry.owner gate)
  | .control => some s.control

variable {s : State}

/-- An action moves one thread through its call, or the closing thread. -/
theorem step_cases {t : State} {action : Action} (stepped : step s action = some t) :
    (∃ thread entry, s.threads[thread]? = some .idle ∧ entry.owner ∈ s.registered ∧
      t = s.move thread (if s.admits entry then .admitted entry else .idle) entry.owner
        (s.gates entry.owner)) ∨
    (∃ thread point entry, s.threads[thread]? = some point ∧ point.entry? = some entry ∧
      t = s.move thread (point.advance (s.gates entry.owner)).2 entry.owner
        (point.advance (s.gates entry.owner)).1) ∨
    action = .control ∧ t = s.control := by
  cases action with
  | enter thread entry =>
    simp only [step] at stepped
    split at stepped
    · rename_i possible
      exact .inl ⟨thread, entry, possible.1, possible.2, (Option.some.inj stepped).symm⟩
    · cases stepped
  | advance thread =>
    obtain ⟨point, here, stepped⟩ := Option.bind_eq_some_iff.mp stepped
    obtain ⟨entry, calls, stepped⟩ := Option.bind_eq_some_iff.mp stepped
    exact .inr (.inl ⟨thread, point, entry, here, calls, (Option.some.inj stepped).symm⟩)
  | control => exact .inr (.inr ⟨rfl, (Option.some.inj stepped).symm⟩)

/-! ## Gates, counts and what has been read -/

namespace State

/-- `close_admission` has shut the gate of a registered owner. -/
def Shut (s : State) (owner : Owner) : Prop :=
  owner ∈ s.registered ∧ ∀ rest, s.closer = .closing rest → owner ∉ rest

/-- The counter of a registered owner was zero when the poll that is under way came to it. -/
def Polled (s : State) (owner : Owner) : Prop :=
  owner ∈ s.registered ∧ (∀ rest, s.closer ≠ .closing rest) ∧
    ∀ rest, s.closer = .polling rest → owner ∉ rest

theorem Polled.shut {owner : Owner} (polled : s.Polled owner) : s.Shut owner :=
  ⟨polled.1, fun rest closing => absurd closing (polled.2.1 rest)⟩

end State

/-- The invariant of a run.  The counters count the threads, and what the closing thread has done
with an owner stays done: nobody can pass a gate that is shut, and behind a counter that was read as
zero nobody runs. -/
structure Sound (s : State) : Prop where
  few : s.threads.length < 2 ^ 32
  placed : ∀ point ∈ s.threads, ∀ entry, point.entry? = some entry → entry.owner ∈ s.registered
  counts : ∀ owner,
    (s.gates owner).activeCalls = BitVec.ofNat 32 (s.threads.countP (·.counted owner))
  shut : ∀ owner, s.Shut owner → (s.gates owner).admission = false
  nobodyLate : ∀ owner, s.Shut owner → ∀ point ∈ s.threads, ¬ point.late owner
  nobodyRuns : ∀ owner, s.Polled owner → ∀ point ∈ s.threads, ¬ point.running owner

theorem Sound.start (counts : Counts) {threads : ℕ} (few : threads < 2 ^ 32) :
    Sound (start counts threads) where
  few := by simpa [Admission.start] using few
  placed point member entry calls := by
    obtain rfl := List.eq_of_mem_replicate member
    cases calls
  counts owner := by
    have nobody : (List.replicate threads Point.idle).countP (·.counted owner) = 0 := by
      refine List.countP_eq_zero.mpr fun point member => ?_
      obtain rfl := List.eq_of_mem_replicate member
      exact Bool.false_ne_true
    simp [Admission.start, nobody]
  shut owner shut := absurd shut.1 (shut.2 _ rfl)
  nobodyLate owner shut := absurd shut.1 (shut.2 _ rfl)
  nobodyRuns owner polled := absurd rfl (polled.2.1 _)

variable {thread : ℕ}

/-- The count of a list in which one entry is replaced, in the counter's arithmetic. -/
theorem ofNat_countP_set {threads : List Point} {old : Point} (new : Point) {p : Point → Bool}
    (here : threads[thread]? = some old) :
    BitVec.ofNat 32 ((threads.set thread new).countP p) + (if p old then 1 else 0) =
      BitVec.ofNat 32 (threads.countP p) + if p new then 1 else 0 := by
  have embedded := congrArg (BitVec.ofNat 32) (countP_set_add new p here)
  rw [BitVec.ofNat_add, BitVec.ofNat_add] at embedded
  convert embedded using 2 <;> split <;> rfl

/-- What holds of all threads holds of all if one goes to a point of which it holds. -/
theorem forall_mem_set {threads : List Point} {new : Point} {P : Point → Prop}
    (kept : ∀ point ∈ threads, P point) (moved : P new) :
    ∀ point ∈ threads.set thread new, P point := fun point member =>
  (List.mem_or_eq_of_mem_set member).elim (kept point) (· ▸ moved)

section

variable (sound : Sound s)
include sound

/-- A thread that moves keeps the invariant, if its owner's counter moves with it and the thread
goes neither through a shut gate nor behind a counter that has been read. -/
theorem Sound.move {old new : Point} {owner : Owner} {gate : Gate}
    (here : s.threads[thread]? = some old) (gates : gate.admission = (s.gates owner).admission)
    (owned : ∀ entry, new.entry? = some entry → entry.owner ∈ s.registered)
    (moved : gate.activeCalls + (if old.counted owner then 1 else 0) =
      (s.gates owner).activeCalls + if new.counted owner then 1 else 0)
    (apart : ∀ other, other ≠ owner → old.counted other = new.counted other)
    (timely : ∀ other, s.Shut other → ¬ new.late other)
    (outside : ∀ other, s.Polled other → ¬ new.running other) :
    Sound (s.move thread new owner gate) where
  few := by simpa [State.move] using sound.few
  placed := forall_mem_set sound.placed owned
  counts other := by
    have counted := ofNat_countP_set new (p := (·.counted other)) here
    have before := sound.counts other
    simp only [State.move]
    by_cases same : other = owner
    · subst same
      rw [Function.update_self]
      rw [← before, ← moved] at counted
      exact ((BitVec.add_left_inj _).mp counted).symm
    · rw [Function.update_of_ne same, before]
      rw [apart other same] at counted
      exact ((BitVec.add_left_inj _).mp counted).symm
  shut := by
    refine (Function.forall_update_iff s.gates fun other gate =>
      s.Shut other → gate.admission = false).mpr ⟨fun shut => ?_, fun other _ => sound.shut other⟩
    rw [gates, sound.shut owner shut]
  nobodyLate other shut := forall_mem_set (sound.nobodyLate other shut) (timely other shut)
  nobodyRuns other polled := forall_mem_set (sound.nobodyRuns other polled) (outside other polled)

variable {entry : Entry}

/-- The first look at a gate lets nobody through a gate that is shut. -/
theorem Sound.enter (here : s.threads[thread]? = some .idle)
    (owned : entry.owner ∈ s.registered) :
    Sound (s.move thread (if s.admits entry then .admitted entry else .idle) entry.owner
      (s.gates entry.owner)) := by
  split
  · rename_i admitted
    refine sound.move here rfl ?_ rfl (fun _ _ => rfl) ?_ (fun _ _ => Bool.false_ne_true)
    · rintro _ ⟨⟩
      exact owned
    · intro other shut isLate
      simp only [Point.late, decide_eq_true_eq] at isLate
      obtain ⟨once, rfl⟩ := isLate
      simp [State.admits, once, sound.shut _ shut] at admitted
  · exact sound.move here rfl nofun rfl (fun _ _ => rfl) (fun _ _ => Bool.false_ne_true)
      (fun _ _ => Bool.false_ne_true)

/-- A call counts itself, and goes on to the second look or into the callback. -/
theorem Sound.announce {new : Point}
    (here : s.threads[thread]? = some (.admitted entry))
    (goes : new = .announced entry ∨ new = .inside entry)
    (outside : ∀ other, s.Polled other → ¬ new.running other) :
    Sound (s.move thread new entry.owner (s.gates entry.owner).announce) := by
  have owned := sound.placed _ (List.mem_of_getElem? here) entry rfl
  have counted (other : Owner) : new.counted other = decide (entry.owner = other) := by
    rcases goes with rfl | rfl <;> rfl
  refine sound.move here rfl ?_ ?_ ?_ ?_ outside
  · intro called calls
    obtain rfl : entry = called := by rcases goes with rfl | rfl <;> exact Option.some.inj calls
    exact owned
  · simp [Gate.announce, counted]
  · intro other different
    simp [counted, Ne.symm different]
  · rcases goes with rfl | rfl <;> exact fun _ _ => Bool.false_ne_true

/-- A call that is over, or that was turned away, takes its count back. -/
theorem Sound.withdraw {point : Point} (here : s.threads[thread]? = some point)
    (counted : ∀ other, point.counted other = decide (entry.owner = other)) :
    Sound (s.move thread .idle entry.owner (s.gates entry.owner).withdraw) := by
  refine sound.move here rfl nofun ?_ ?_ (fun _ _ => Bool.false_ne_true)
    (fun _ _ => Bool.false_ne_true)
  · simp only [Gate.withdraw, counted, decide_true, if_true]
    exact (BitVec.sub_add_cancel _ _).trans (BitVec.add_zero _).symm
  · intro other different
    simp [counted, Ne.symm different]

/-- The second look turns everybody away from a gate that is shut. -/
theorem Sound.recheck (here : s.threads[thread]? = some (.announced entry)) :
    Sound (s.move thread (if (s.gates entry.owner).admission then .inside entry
      else .rejecting entry) entry.owner (s.gates entry.owner)) := by
  have owned := sound.placed _ (List.mem_of_getElem? here) entry rfl
  split
  · rename_i admitted
    refine sound.move here rfl ?_ rfl (fun _ _ => rfl) (fun _ _ => Bool.false_ne_true) ?_
    · rintro _ ⟨⟩
      exact owned
    · intro other polled runs
      simp only [Point.running, decide_eq_true_eq] at runs
      obtain ⟨-, rfl⟩ := runs
      exact Bool.false_ne_true ((sound.shut _ polled.shut).symm.trans admitted)
  · refine sound.move here rfl ?_ rfl (fun _ _ => rfl) (fun _ _ => Bool.false_ne_true)
      (fun _ _ => Bool.false_ne_true)
    rintro _ ⟨⟩
    exact owned

/-- A call that goes on keeps the invariant.  The only two steps into a callback are the second look
of an `ActiveCall`, which finds a shut gate, and the counting of a call without one, which is not
late. -/
theorem Sound.advance {point : Point} (here : s.threads[thread]? = some point)
    (calls : point.entry? = some entry) :
    Sound (s.move thread (point.advance (s.gates entry.owner)).2 entry.owner
      (point.advance (s.gates entry.owner)).1) := by
  cases point with
  | idle => cases calls
  | admitted called =>
    obtain rfl : called = entry := Option.some.inj calls
    simp only [Point.advance]
    split
    · exact sound.announce here (.inl rfl) fun _ _ => Bool.false_ne_true
    · rename_i twice
      refine sound.announce here (.inr rfl) fun other polled runs => ?_
      simp only [Point.running, Entry.gated, decide_eq_true_eq] at runs
      have once : called.check = .once := by
        cases checked : called.check <;> simp_all
      refine sound.nobodyLate other polled.shut _ (List.mem_of_getElem? here) ?_
      simp [Point.late, once, runs.2]
  | announced called =>
    obtain rfl : called = entry := Option.some.inj calls
    exact sound.recheck here
  | rejecting called | inside called =>
    obtain rfl : called = entry := Option.some.inj calls
    exact sound.withdraw here fun _ => rfl

end

/-! ## The closing thread -/

/-- The owner whose gate `close_admission` shuts next. -/
def State.closes (s : State) : Option Owner :=
  match s.closer with
  | .closing (owner :: _) => some owner
  | _ => none

/-- When the gate of an owner is about to be shut, no call of the owner has looked at it once and
for all without having counted itself yet. -/
def NobodyBetween (s : State) (action : Action) : Prop :=
  action = .control → ∀ owner ∈ s.closes, ∀ point ∈ s.threads, ¬ point.late owner

instance : DecidableRel NobodyBetween := fun _ action =>
  inferInstanceAs (Decidable (action = .control → _))

/-- A counter that is read as zero has no thread behind it. -/
theorem Sound.nobodyCounted (sound : Sound s) {owner : Owner}
    (zero : (s.gates owner).activeCalls = 0) : ∀ point ∈ s.threads, ¬ point.counted owner := by
  have bound := List.countP_le_length (l := s.threads) (p := (·.counted owner))
  have counted := congrArg BitVec.toNat ((sound.counts owner).symm.trans zero)
  rw [BitVec.toNat_ofNat, Nat.mod_eq_of_lt (bound.trans_lt sound.few)] at counted
  exact List.countP_eq_zero.mp counted

theorem Point.counted_of_running {point : Point} {owner : Owner} (runs : point.running owner) :
    point.counted owner := by
  cases point <;> simp_all [running, counted]

theorem Sound.control (sound : Sound s) (between : NobodyBetween s .control) :
    Sound s.control := by
  -- a move that shuts no gate has to show what a counter that was read means
  have goes {closer : Closer} (shut : ∀ owner ∈ s.registered, s.Shut owner)
      (runs : ∀ owner, State.Polled { s with closer } owner →
        ∀ point ∈ s.threads, ¬ point.running owner) : Sound { s with closer } :=
    ⟨sound.few, sound.placed, sound.counts, fun owner now => sound.shut owner (shut owner now.1),
      fun owner now => sound.nobodyLate owner (shut owner now.1), runs⟩
  unfold State.control
  split
  · rename_i closing
    exact goes (fun owner member => ⟨member, by simp [closing]⟩) fun owner polled =>
      absurd polled.1 (polled.2.2 _ rfl)
  · rename_i owner rest closing
    -- a gate that is shut now was shut before, or it is the one that this access shuts
    have earlier {other : Owner} (different : other ≠ owner) (member : other ∈ s.registered)
        (done : other ∉ rest) : s.Shut other := by
      refine ⟨member, fun rest' closing' => ?_⟩
      obtain rfl : owner :: rest = rest' := by simpa [closing] using closing'
      simp [different, done]
    refine ⟨sound.few, sound.placed, ?_, ?_, ?_, ?_⟩
    · intro other
      by_cases same : other = owner
      · subst same
        simpa [Gate.close] using sound.counts other
      · simpa [Function.update_of_ne same] using sound.counts other
    · intro other shut
      by_cases same : other = owner
      · subst same
        simp [Gate.close]
      · simpa [Function.update_of_ne same] using
          sound.shut other (earlier same shut.1 (shut.2 rest rfl))
    · intro other shut
      by_cases same : other = owner
      · subst same
        exact between rfl other (by simp [State.closes, closing])
      · exact sound.nobodyLate other (earlier same shut.1 (shut.2 rest rfl))
    · exact fun other polled => absurd rfl (polled.2.1 rest)
  · rename_i polling
    exact goes (fun owner member => ⟨member, by simp [polling]⟩) fun owner polled =>
      sound.nobodyRuns owner ⟨polled.1, by simp [polling], by simp [polling]⟩
  · rename_i owner rest polling
    have shut : ∀ other ∈ s.registered, s.Shut other := fun _ member => ⟨member, by simp [polling]⟩
    split
    · exact goes shut fun other polled => absurd polled.1 (polled.2.2 _ rfl)
    · rename_i zero
      refine goes shut fun other polled point member runs => ?_
      by_cases same : other = owner
      · subst same
        exact sound.nobodyCounted (not_not.mp zero) point member (Point.counted_of_running runs)
      · refine sound.nobodyRuns other ⟨polled.1, by simp [polling], ?_⟩ point member runs
        intro rest' now
        obtain rfl : owner :: rest = rest' := by simpa [polling] using now
        simp [same, polled.2.2 rest rfl]
  · exact sound

theorem Sound.step {t : State} {action : Action} (sound : Sound s)
    (between : NobodyBetween s action) (stepped : step s action = some t) : Sound t := by
  obtain ⟨thread, entry, here, owned, rfl⟩ | ⟨thread, point, entry, here, calls, rfl⟩ |
    ⟨rfl, rfl⟩ := step_cases stepped
  · exact sound.enter here owned
  · exact sound.advance here calls
  · exact sound.control between

/-! ## Quiescence -/

theorem closer_of_quiescent {t : State} {action : Action} (quiescent : s.closer = .quiescent)
    (stepped : step s action = some t) : t.closer = .quiescent := by
  obtain ⟨thread, entry, -, -, rfl⟩ | ⟨thread, point, entry, -, -, rfl⟩ | ⟨rfl, rfl⟩ :=
    step_cases stepped
  · exact quiescent
  · exact quiescent
  · simp [State.control, quiescent]

/-- Once `callbacks_quiescent` has returned true, nobody runs a callback that the gate had a say in,
however long the threads go on; provided that no gate was shut while a call of its owner stood
between its only look and its count. -/
theorem quiescent_admits_nobody (counts : Counts) {threads : ℕ} (few : threads < 2 ^ 32)
    {before after : List Action} {s t : State}
    (ran : runActions step (start counts threads) before = some s)
    (between : RunMeets step NobodyBetween (start counts threads) before)
    (quiescent : s.closer = .quiescent) (went : runActions step s after = some t) :
    ∀ point ∈ t.threads, ∀ entry, point = .inside entry → entry.gated = false := by
  have sound : Sound s :=
    RunMeets.invariant (fun _ _ _ sound between stepped => sound.step between stepped)
      (Sound.start counts few) between ran
  -- nothing is shut any more, so the proviso is void for the rest of the run
  obtain ⟨sound, quiescent⟩ : Sound t ∧ t.closer = .quiescent := by
    have anything : ∀ action ∈ after, (fun _ => True) action := fun _ _ => trivial
    refine runActions_invariant (I := fun s => Sound s ∧ s.closer = .quiescent) ?_
      ⟨sound, quiescent⟩ anything went
    rintro u action v ⟨sound, quiescent⟩ - stepped
    refine ⟨sound.step ?_ stepped, closer_of_quiescent quiescent stepped⟩
    intro _ owner closes
    simp [State.closes, quiescent] at closes
  rintro point member entry rfl
  have owned := sound.placed _ member entry rfl
  have outside := sound.nobodyRuns entry.owner
    ⟨owned, by simp [quiescent], by simp [quiescent]⟩ _ member
  simpa [Point.running] using outside

/-- A call of `submit` is counted, then the gates are shut; the first poll finds it, and after its
return the second finds nobody. -/
def submitDrained : List Action :=
  [.enter 0 (.backend 0 .submit), .advance 0] ++ List.replicate 6 .control ++
    .advance 0 :: List.replicate 4 .control

theorem quiescent_admits_nobody_submit :
    ∃ s, runActions step (start ⟨1, 1, 1⟩ 1) submitDrained = some s ∧ s.closer = .quiescent ∧
      ∀ point ∈ s.threads, ∀ entry, point = .inside entry → entry.gated = false := by
  have few : 1 < 2 ^ 32 := by decide
  have between : RunMeets step NobodyBetween (start ⟨1, 1, 1⟩ 1) submitDrained := by decide
  have stays (s : State) : runActions step s [] = some s := rfl
  exact ⟨_, rfl, rfl, quiescent_admits_nobody ⟨1, 1, 1⟩ few rfl between rfl (stays _)⟩

/-- A call of `submit` looks at the gate; the gate is shut and the counter read as zero, and the
callback is entered after that. -/
theorem submit_enters_quiescent :
    ∃ s t, runActions step (start ⟨0, 1, 0⟩ 1)
        [.enter 0 (.backend 0 .submit), .control, .control, .control, .control] = some s ∧
      s.closer = .quiescent ∧ runActions step s [.advance 0] = some t ∧
      Point.inside (.backend 0 .submit) ∈ t.threads ∧
      (Entry.backend 0 .submit).gated = true :=
  ⟨_, _, rfl, rfl, rfl, by decide, rfl⟩

end Admission

end RtRuntime
