import RtRuntime.DeviceResults

/-!
# Completions that come late

`poll_batch_completions` checks what the vendor reports against the slots before it settles
anything.  An ordinary batch that is settled as timed out gives its slot back, so a completion that
is reported for it later matches no slot; the poll takes that for a fault of the backend and goes
over the backend's batches to fail them.  It spares those that it finds in other states than queued,
submitting and submitted.

The poll is modelled from the point where the vendor's call has succeeded and no earlier failure is
pending.  It reads one field of a slot at a time, and all the parties of `DeviceBatches` go on
meanwhile.
-/

namespace RtRuntime

open BatchManager

variable {κ τ : Type*}

section Poll

/-- A completion that the vendor reports.  `sound` says whether it passes
`validate_batch_completion` and names the timestamp domain of the backend. -/
structure BatchCompletion where
  batchId : ℕ
  status : Status
  signals : List TimelinePoint
  sound : Bool
  deriving DecidableEq, Repr

/-- The completion under check, and those that were reported before and after it. -/
structure PollCheck where
  earlier : List BatchCompletion
  completion : BatchCompletion
  later : List BatchCompletion

/-- The point that a poll has reached: the search for the slot of a completion, the comparison of its
signals, `process_batch_completion` for all of them, or `fail_backend_batches`. -/
inductive PollPc (κ : Type*)
  | searching (check : PollCheck) (rest : List κ)
  | sighted (check : PollCheck) (slot : κ) (rest : List κ)
  | matching (check : PollCheck) (slot : κ)
  | processing (completions : List BatchCompletion)
  | failing (rest : List κ)

/-- A backend with a poll under way. -/
structure BatchPoll (κ τ : Type*) where
  backend : BatchManager κ τ
  poll : PollPc κ

/-- A step of the poll itself, or one of anybody else or of what the poll has set the service to. -/
inductive PollAction (κ τ : Type*)
  | base (action : BatchAction κ τ)
  | poll

variable (allSlots : List κ)

/-- The check of the next completion begins; it fails at once if the completion is not sound or was
reported before. -/
def checkNext (earlier : List BatchCompletion) : List BatchCompletion → PollPc κ
  | [] => .processing earlier
  | completion :: later =>
    if completion.sound ∧ completion.batchId ∉ earlier.map BatchCompletion.batchId then
      .searching ⟨earlier, completion, later⟩ allSlots
    else .failing allSlots

/-- What the service looks at slots for while a poll is at this point. -/
def PollPc.processes : PollPc κ → ServiceReason → Bool
  | .processing completions, reason =>
    completions.any fun c => reason = .completion c.batchId c.status
  | _, _ => false

/-- The slot that `fail_backend_batches` loads next. -/
def PollPc.sweeps : PollPc κ → Option κ
  | .failing (k :: _) => some k
  | _ => none

/-- The reason for a look. -/
def BatchAction.looks : BatchAction κ τ → Option ServiceReason
  | .look _ reason => some reason
  | _ => none

namespace BatchPoll

variable [DecidableEq κ] [DecidableEq τ]

/-- The next access of `poll_batch_completions`. -/
def stepPoll (r : BatchPoll κ τ) : Option (BatchPoll κ τ) :=
  match r.poll with
  | .searching check (k :: rest) =>
    some ⟨r.backend,
      if (r.backend.slots k).state ∈
          [BatchState.submitting, .submitted, .rateQuarantineOwned, .rateQuarantined] then
        .sighted check k rest
      else .searching check rest⟩
  | .searching _ [] => some ⟨r.backend, .failing allSlots⟩
  | .sighted check k rest =>
    some ⟨r.backend,
      if (r.backend.slots k).batch.batchId = check.completion.batchId then .matching check k
      else .searching check rest⟩
  | .matching check k =>
    some ⟨r.backend,
      if check.completion.signals = (r.backend.slots k).batch.request.signals then
        checkNext allSlots (check.earlier ++ [check.completion]) check.later
      else .failing allSlots⟩
  | .failing (k :: rest) =>
    (r.backend.act allSlots (.look k (.failure .deviceError))).map fun s => ⟨s, .failing rest⟩
  | .processing _ | .failing [] => none

def act (r : BatchPoll κ τ) : PollAction κ τ → Option (BatchPoll κ τ)
  | .base action =>
    if action.looks.all r.poll.processes then
      (r.backend.act allSlots action).map fun s => { r with backend := s }
    else none
  | .poll => r.stepPoll allSlots

/-- The sweep of `fail_backend_batches` finds no batch in slot `k` that it would fail, and releases
keep their rule. -/
def Passes (k : κ) (r : BatchPoll κ τ) : PollAction κ τ → Prop
  | .base action => r.backend.Disciplined action
  | .poll => r.poll.sweeps = some k →
    (r.backend.slots k).state ∉ [BatchState.queued, .submitting, .submitted]

end BatchPoll

end Poll

section Check

/-- A poll that has the completion of a freed batch before it. -/
def PollFails (batchId : ℕ) (s : BatchManager κ τ) : PollPc κ → Prop
  | .searching check _ => ∃ c ∈ check.completion :: check.later, c.batchId = batchId
  | .sighted check k _ => (∃ c ∈ check.later, c.batchId = batchId) ∨
    check.completion.batchId = batchId ∧ (s.slots k).batch.batchId ≠ batchId
  | .matching check _ => ∃ c ∈ check.later, c.batchId = batchId
  | .processing _ => False
  | .failing _ => True

theorem checkNext_fails {allSlots : List κ} {earlier later : List BatchCompletion} {batchId : ℕ}
    {s : BatchManager κ τ} (ahead : ∃ c ∈ later, c.batchId = batchId) :
    PollFails batchId s (checkNext allSlots earlier later) := by
  cases later with
  | nil => simp at ahead
  | cons c later =>
    rw [checkNext]
    split
    · exact ahead
    · trivial

variable [DecidableEq κ] [DecidableEq τ] {allSlots : List κ} {s s' : BatchManager κ τ}
  {action : BatchAction κ τ} {batchId : ℕ}

/-- A slot keeps its batch or gets one with a new id. -/
theorem BatchManager.act_batch (stepped : s.act allSlots action = some s') (k : κ) :
    (s'.slots k).batch = (s.slots k).batch ∨ s.nextBatchId ≤ (s'.slots k).batch.batchId := by
  have stays {t : BatchManager κ τ} {j : κ} {slot : BatchSlot}
      (slots : t.slots = Function.update s.slots j slot)
      (batch : slot.batch = (s.slots j).batch ∨ s.nextBatchId ≤ slot.batch.batchId) :
      (t.slots k).batch = (s.slots k).batch ∨ s.nextBatchId ≤ (t.slots k).batch.batchId := by
    by_cases same : k = j
    · subst same
      rwa [update_at slots]
    · exact .inl (by rw [update_off slots same])
  cases act_cases stepped with
  | swap | unreserve | queue | take | giveBack | hand | settle | retire | free | quarantine =>
    exact stays rfl (.inl rfl)
  | @write j reason => exact stays rfl (.inl (by cases reason <;> rfl))
  | fill => exact stays rfl (.inr (Nat.le_add_right _ _))
  | _ => exact .inl rfl

/-- What was freed stays freed. -/
theorem BatchManager.act_freed (stepped : s.act allSlots action = some s')
    (gone : batchId ∈ s.freed) : batchId ∈ s'.freed := by
  cases act_cases stepped with
  | giveBack | free => exact List.mem_append_left _ gone
  | _ => exact gone

omit [DecidableEq κ] [DecidableEq τ] in
theorem BatchBooks.freed_lt (h : BatchBooks s) (gone : batchId ∈ s.freed) :
    batchId < s.nextBatchId := by
  obtain ⟨b, member, rfl⟩ := h.ledger.freedListed _ gone
  exact h.ledger.bound b member

/-- The others cannot make a slot match that does not. -/
theorem PollFails.act {poll : PollPc κ} (h : PollFails batchId s poll) (books : BatchBooks s)
    (gone : batchId ∈ s.freed) (stepped : s.act allSlots action = some s') :
    PollFails batchId s' poll := by
  cases poll with
  | sighted check k rest =>
    refine h.imp_right fun ⟨named, other⟩ => ⟨named, ?_⟩
    rcases BatchManager.act_batch stepped k with same | new
    · rwa [same]
    · exact ((books.freed_lt gone).trans_le new).ne'
  | _ => exact h

/-- No slot that holds a batch matches the completion of a freed one. -/
theorem PollFails.poll {r r' : BatchPoll κ τ} (h : PollFails batchId r.backend r.poll)
    (books : BatchBooks r.backend) (gone : batchId ∈ r.backend.freed)
    (stepped : r.stepPoll allSlots = some r') : PollFails batchId r'.backend r'.poll := by
  unfold BatchPoll.stepPoll at stepped
  split at stepped
  next check k rest place =>
    cases stepped
    rw [place] at h
    simp only
    split
    next state =>
      obtain ⟨c, member, named⟩ := h
      rcases List.mem_cons.mp member with rfl | later
      · have held : r.backend.Holds k := by
          constructor <;> intro same <;> simp [same] at state
        refine .inr ⟨named, ?_⟩
        rintro rfl
        exact books.ledger.holding k held gone
      · exact .inl ⟨c, later, named⟩
    next => exact h
  next =>
    cases stepped
    trivial
  next check k rest place =>
    cases stepped
    rw [place] at h
    simp only
    split
    next same =>
      refine h.resolve_right fun ⟨named, other⟩ => other ?_
      rw [same, named]
    next =>
      rcases h with ⟨c, later, named⟩ | ⟨named, -⟩
      · exact ⟨c, List.mem_cons_of_mem _ later, named⟩
      · exact ⟨_, List.mem_cons_self, named⟩
  next check k place =>
    cases stepped
    rw [place] at h
    simp only
    split
    · exact checkNext_fails h
    · trivial
  next =>
    obtain ⟨t, -, rfl⟩ := Option.map_eq_some_iff.mp stepped
    trivial
  next => cases stepped
  next => cases stepped

end Check

section Sweep

/-- The service goes over the slots for a failure and has nothing for slot `k` but the result that
its own completion has left there. -/
def BatchPc.spares (k : κ) (slot : BatchSlot) : BatchPc κ → Prop
  | .loaded j state reason => (∃ status, reason = .failure status) ∧
    (j = k → state ∉ [BatchState.queued, .submitting, .submitted])
  | .saw j state reason => (∃ status, reason = .failure status) ∧ (j = k → state = .completionReady)
  | .wrote j reason => (∃ status, reason = .failure status) ∧ j ≠ k
  | .aimed _ _ _ | .expired _ | .quarantining _ _ => False
  | pc => ∀ status, pc.ends = some (k, status) → status = slot.earlyStatus ∨
    status = .deviceTimeout ∧ slot.batch.request.simulated = true

variable {allSlots : List κ} {s s' : BatchManager κ τ} {k : κ} {action : BatchAction κ τ}
  {old pc : BatchPc κ}

theorem BatchMove.spares (moves : BatchMove allSlots s action old pc)
    (service : action.party = .service) (unlooked : action.looks = none)
    (before : old.spares k (s.slots k)) : pc.spares k (s.slots k) := by
  cases moves with
  | look => cases unlooked
  | concerned found =>
    obtain ⟨⟨status, rfl⟩, passed⟩ := before
    refine ⟨⟨status, rfl⟩, fun same => ?_⟩
    have other := passed same
    simp only [concerns, Bool.or_eq_true, beq_iff_eq] at found
    simp only [List.mem_cons, List.not_mem_nil, or_false, not_or] at other
    rcases found with ((sent | queued) | sent) | ready
    · exact absurd sent other.2.1
    · exact absurd queued other.1
    · exact absurd sent other.2.2
    · exact ready
  | aim =>
    obtain ⟨⟨status, other⟩, -⟩ := before
    cases other
  | @retry j reason =>
    obtain ⟨⟨status, rfl⟩, ne⟩ := before
    simp only [BatchManager.retry]
    split
    · exact ⟨⟨status, rfl⟩, fun same => absurd same ne⟩
    · rintro status ⟨⟩
  | publish kept =>
    rintro status ⟨⟩
    rcases before _ rfl with own | late
    · rcases kept with rfl | late
      · exact .inl own
      · exact .inr late
    · rcases kept with rfl | late'
      · exact .inr late
      · exact .inr late'
  | settle => exact before
  | expire => exact before.elim
  | unconcerned | changed => rintro status ⟨⟩
  | _ => cases service

theorem BatchSwap.spares {j : κ} {slot : BatchSlot} {expected target : BatchState}
    (swaps : BatchSwap s action old j expected target pc) (service : action.party = .service)
    (before : old.spares k (s.slots k)) (early : slot.earlyStatus = (s.slots k).earlyStatus) :
    pc.spares k slot := by
  cases swaps with
  | claim =>
    obtain ⟨⟨status, rfl⟩, ready⟩ := before
    simp only [claimed]
    split
    next =>
      rintro status ⟨⟩
      exact .inl early.symm
    next other =>
      rintro status ⟨⟩
      exact absurd (ready rfl) other
  | timeout => exact before.elim
  | offer => rintro status ⟨⟩
  | _ => cases service

variable [DecidableEq κ] [DecidableEq τ]

/-- A slot that the service gives its result is not touched by anybody else. -/
theorem Exclusive.act_owned (h : Exclusive s) (saw : SawUnclaimed s)
    (disciplined : s.Disciplined action) (stepped : s.act allSlots action = some s')
    (owned : (s.pcs .service).owns = some (k, .owned)) (other : action.party ≠ .service) :
    s'.slots k = s.slots k := by
  have claimed : (s.slots k).state.Claimed := h.claimed_at rfl owned
  have mine {x : BatchParty τ} {pc : BatchPc κ} {j : κ} {state : BatchState} (ne : x ≠ .service)
      (place : s.pcs x = pc) (owns : pc.owns = some (j, state)) : k ≠ j := by
    rintro rfl
    exact ne (h.unique x .service k state _ (place ▸ owns) owned)
  have unclaimed {j : κ} (free : ¬(s.slots j).state.Claimed) : k ≠ j := by
    rintro rfl
    exact free claimed
  cases act_cases stepped with
  | swap place swaps found =>
    exact update_off rfl (unclaimed (found ▸ swaps.unclaimed saw place))
  | unreserve place | fill _ place | queue place | giveBack place =>
    exact update_off rfl (mine (by simp) place rfl)
  | settle place | retire place | free place | quarantine place =>
    exact update_off rfl (mine other place rfl)
  | take _ found | hand _ found =>
    exact update_off rfl (unclaimed (by simp [found, BatchState.Claimed]))
  | write => exact absurd rfl other
  | _ => rfl

/-- Whoever moves, the service has nothing else for the slot. -/
theorem BatchPc.spares_act (exclusive : Exclusive s) (saw : SawUnclaimed s)
    (disciplined : s.Disciplined action) (stepped : s.act allSlots action = some s')
    (unlooked : action.looks = none) (before : (s.pcs .service).spares k (s.slots k)) :
    (s'.pcs .service).spares k (s'.slots k) := by
  have rests {t : BatchManager κ τ} {pc : BatchPc κ}
      (pcs : t.pcs = Function.update s.pcs .service pc) (spares : pc.spares k (t.slots k)) :
      (t.pcs .service).spares k (t.slots k) := update_at pcs ▸ spares
  by_cases service : action.party = .service
  · cases act_cases stepped with
    | move place moves =>
      rw [service] at place ⊢
      exact rests rfl (moves.spares service unlooked (place ▸ before))
    | @swap _ _ j _ target _ place swaps found =>
      rw [service] at place ⊢
      refine rests rfl (swaps.spares service (place ▸ before) ?_)
      simp only [BatchManager.setPc, BatchManager.setState, BatchManager.setSlot,
        Function.update_apply]
      split
      next same => rw [same]
      next => rfl
    | write place =>
      rw [place] at before
      refine rests rfl ⟨before.1, fun same => ?_⟩
      cases before.2 same
    | signal place =>
      cases service
      rw [place] at before
      exact rests rfl before
    | settle | retire | drop | free | complete =>
      cases service
      exact rests rfl nofun
    | quarantine place =>
      cases service
      rw [place] at before
      exact before.elim
    | _ => cases service
  · have same : s'.pcs .service = s.pcs .service := by
      cases act_cases stepped <;> exact update_off rfl (Ne.symm service)
    rw [same]
    cases place : s.pcs .service with
    | finishing j status publish | publishing j status rest | settling j status =>
      rw [place] at before
      rintro status ⟨⟩
      rw [exclusive.act_owned saw disciplined stepped (by rw [place]; rfl) service]
      exact before _ rfl
    | loaded | saw | wrote | aimed | expired | quarantining =>
      rw [place] at before
      exact before
    | _ => exact nofun

end Sweep

section Late

variable [DecidableEq κ] [DecidableEq τ]

/-- What holds while a poll with a late completion is under way. -/
structure PollSpares (batchId : ℕ) (k : κ) (r : BatchPoll κ τ) : Prop where
  accounts : BatchAccounts r.backend
  gone : batchId ∈ r.backend.freed
  fails : PollFails batchId r.backend r.poll
  spares : (r.backend.pcs .service).spares k (r.backend.slots k)

theorem PollSpares.act {allSlots : List κ} {batchId : ℕ} {k : κ} {r r' : BatchPoll κ τ}
    {action : PollAction κ τ} (h : PollSpares batchId k r) (passes : r.Passes k action)
    (stepped : r.act allSlots action = some r') : PollSpares batchId k r' := by
  obtain ⟨accounts, gone, fails, spares⟩ := h
  cases action with
  | base action =>
    simp only [BatchPoll.act] at stepped
    split at stepped
    next allowed =>
      obtain ⟨s', moved, rfl⟩ := Option.map_eq_some_iff.mp stepped
      -- a poll that processes no completions looks at no slot for one
      have unlooked : action.looks = none := by
        cases looks : action.looks with
        | none => rfl
        | some reason =>
          rw [looks] at allowed
          cases place : r.poll <;> rw [place] at allowed fails
          case processing => exact fails.elim
          all_goals cases allowed
      exact ⟨accounts.act passes moved, act_freed moved gone,
        fails.act accounts.books gone moved,
        BatchPc.spares_act accounts.exclusive accounts.unclaimed passes moved unlooked spares⟩
    next => cases stepped
  | poll =>
    have fails' := fails.poll accounts.books gone stepped
    simp only [BatchPoll.act, BatchPoll.stepPoll] at stepped
    split at stepped
    case h_5 j rest place =>
      obtain ⟨s', moved, rfl⟩ := Option.map_eq_some_iff.mp stepped
      have disciplined : r.backend.Disciplined (.look j (.failure .deviceError)) := trivial
      refine ⟨accounts.act disciplined moved, act_freed moved gone, fails', ?_⟩
      simp only [BatchPoll.Passes, place] at passes
      simp only [BatchManager.act] at moved
      split at moved
      next =>
        split at moved <;> cases moved
        simp only [BatchManager.setPc, Function.update_self]
        exact ⟨⟨_, rfl⟩, fun same => same ▸ passes (congrArg some same)⟩
      next => cases moved
    all_goals cases stepped
    all_goals exact ⟨accounts, gone, fails', spares⟩

/-- A poll in whose report there is a completion of a batch that was freed never accepts the report.
In every run in which the sweep that follows finds no batch in slot `k` that is queued or with the
vendor, and releases keep their rule, the sweep leaves no failure at slot `k`, and the only result
that the service ever has for a batch there is that of its own completion, unless a simulated batch
has passed its deadline. -/
theorem late_completion_spares (allSlots : List κ) {start s : BatchManager κ τ}
    {before : List (BatchAction κ τ)} (fresh : start.Fresh)
    (disciplined : RunMeets (act allSlots) Disciplined start before)
    (reached : runActions (act allSlots) start before = some s) (idle : s.pcs .service = .idle)
    {completions : List BatchCompletion} {late : BatchCompletion} (reported : late ∈ completions)
    (gone : late.batchId ∈ s.freed) {k : κ} {actions : List (PollAction κ τ)} {r : BatchPoll κ τ}
    (passes : RunMeets (BatchPoll.act allSlots) (BatchPoll.Passes k)
      ⟨s, checkNext allSlots [] completions⟩ actions)
    (ran : runActions (BatchPoll.act allSlots) ⟨s, checkNext allSlots [] completions⟩ actions =
      some r) :
    (∀ accepted, r.poll ≠ .processing accepted) ∧
      (∀ reason, r.backend.pcs .service ≠ .wrote k reason) ∧
      ∀ status, (r.backend.pcs .service).ends = some (k, status) →
        status = (r.backend.slots k).earlyStatus ∨
          status = .deviceTimeout ∧ (r.backend.slots k).batch.request.simulated = true := by
  have accounts : BatchAccounts s :=
    disciplined.invariant (fun _ _ _ kept ok stepped => kept.act ok stepped) fresh.accounts reached
  have start : PollSpares late.batchId k (⟨s, checkNext allSlots [] completions⟩ : BatchPoll κ τ) :=
    ⟨accounts, gone, checkNext_fails ⟨late, reported, rfl⟩, by rw [idle]; exact nofun⟩
  have kept := passes.invariant (fun _ _ _ h ok stepped => h.act ok stepped) start ran
  refine ⟨fun accepted place => ?_, fun reason place => ?_, fun status ends => ?_⟩
  · have fails := kept.fails
    rw [place] at fails
    exact fails
  · have spares := kept.spares
    rw [place] at spares
    exact spares.2 rfl
  · have spares := kept.spares
    cases place : r.backend.pcs .service <;> rw [place] at ends spares <;> try cases ends
    all_goals exact spares status rfl

end Late

section Runs

/-- A release that signals timeline 1. -/
def otherRelease : BatchRequest := ⟨3, [], [⟨1, 5⟩], some 7, false⟩

/-- Batch 1 is ordinary, times out and gives its slot back; the vendor has batch 2 meanwhile. -/
def timedOutRun : List (BatchAction (Fin 2) Bool) :=
  submitRun false 0 signalRequest ++ submitRun true 1 otherRelease ++ laneRun 11 ++ laneRun 10 ++
    .look 0 .timeout :: List.replicate 4 .service ++ List.replicate 6 (.finish .service false)

/-- The vendor reports batch 1. -/
def lateReport : List BatchCompletion := [⟨1, .ok, [⟨0, 5⟩], true⟩]

/-- The poll finds no slot for it, and its sweep fails what it finds in slot 1. -/
def failSweep : List (PollAction (Fin 2) Bool) :=
  List.replicate 5 .poll ++ [.base .service, .poll, .base .service, .base .service] ++
    List.replicate 3 (.base (.finish .service false))

/-- Only the completion of batch 1 is reported, and batch 2 ends with `device_error`. -/
theorem late_completion_fails_batch :
    (runActions (act [0, 1]) twoBatchSlots timedOutRun).map
        (fun s => (s.freed, (s.slots 1).state, s.settled)) = some ([1], .submitted, []) ∧
      ((runActions (act [0, 1]) twoBatchSlots timedOutRun).bind fun s =>
        runActions (BatchPoll.act [0, 1]) ⟨s, checkNext [0, 1] [] lateReport⟩ failSweep).map
          (·.backend.settled) = some [(2, .finish, .deviceError)] := by
  constructor <;> decide +kernel

/-- During the poll a caller reserves slot 0, which the sweep then finds reserved, and publishes. -/
def passedOver : List (PollAction (Fin 2) Bool) :=
  let submit := .base (.submit false ⟨some ⟨3, [], [⟨0, 6⟩], none, false⟩, 0⟩)
  List.replicate 4 .poll ++ [submit, submit, .poll, submit, submit, submit, submit, .base .service]

instance decidablePasses [DecidableEq κ] [DecidableEq τ] (k : κ) (r : BatchPoll κ τ) :
    (action : PollAction κ τ) → Decidable (r.Passes k action)
  | .base action => decidableDisciplined r.backend action
  | .poll => inferInstanceAs (Decidable (_ → _))

theorem late_completion_spares_reserved :
    ∃ s r, runActions (act [0, 1]) twoBatchSlots timedOutRun = some s ∧
      runActions (BatchPoll.act [0, 1]) ⟨s, checkNext [0, 1] [] lateReport⟩ passedOver = some r ∧
      (r.backend.slots 0).state = .queued ∧
      ∀ reason, r.backend.pcs .service ≠ .wrote 0 reason := by
  have facts : (runActions (act [0, 1]) twoBatchSlots timedOutRun).any (fun s =>
      1 ∈ s.freed ∧ RunMeets (BatchPoll.act [0, 1]) (BatchPoll.Passes 0)
        ⟨s, checkNext [0, 1] [] lateReport⟩ passedOver ∧
      (runActions (BatchPoll.act [0, 1]) ⟨s, checkNext [0, 1] [] lateReport⟩ passedOver).any
        fun r => (r.backend.slots 0).state = .queued) := by
    decide +kernel
  have idle : (runActions (act [0, 1]) twoBatchSlots timedOutRun).map (·.pcs .service) =
      some .idle := rfl
  obtain ⟨s, reached, facts⟩ := (Option.any_eq_true _ _).mp facts
  obtain ⟨gone, passes, queued⟩ := of_decide_eq_true facts
  obtain ⟨r, ran, state⟩ := (Option.any_eq_true _ _).mp queued
  exact ⟨s, r, reached, ran, of_decide_eq_true state,
    (late_completion_spares [0, 1] twoBatchSlots_fresh (by decide +kernel) reached
      (Option.some_injective _ (by rwa [reached] at idle)) List.mem_cons_self gone passes ran).2.1⟩

end Runs

end RtRuntime
