import RtRuntime.Basic
import RtRuntime.Interleaving

/-!
# Command batches of one device backend

`submit_batch` places a batch in a slot of its backend; the submission lane hands queued batches to
the vendor; the service lane takes completions, failures and timeouts to the slots; and for a rate
batch the caller waits for the terminal result and releases the slot.  All of them meet at the state
word of a slot, which changes hands by compare-and-swap.

Timelines, slots, the admission lock and the sequence numbers belong to one backend, so one backend
is modelled.  Whoever looks at a slot that another party may change reads one field of it at a time,
and between two reads everybody else may move: the lane loads a state, compares a sequence number and
reads the number once more to keep it, and the service reads who owns a batch before and after it
swaps the state word.  What a party reads or writes in one step beyond that is the contents of a slot
it has claimed, up to the store of the state word that gives the slot away.  Clocks and the vendor
answer as they please: whether a deadline has passed and what the vendor reports are part of an
action.
-/

namespace RtRuntime

section Data

/-- The state word of a batch slot. -/
inductive BatchState
  | free
  | reserved
  | queued
  | submitting
  | submitted
  | earlyReady
  | owned
  | completionReady
  | rateTerminal
  | rateQuarantineOwned
  | rateQuarantined
  deriving DecidableEq, Repr

structure TimelinePoint where
  timeline : ℕ
  value : ℕ
  deriving DecidableEq, Repr

/-- What a caller asks `submit_batch` for; a rate batch has the identity of its release. -/
structure BatchRequest where
  phaseIndex : ℕ
  waits : List TimelinePoint
  signals : List TimelinePoint
  rateIdentity : Option ℕ
  simulated : Bool
  deriving DecidableEq, Repr

/-- A request with the numbers it was accepted under. -/
structure DeviceBatch where
  batchId : ℕ
  sequence : ℕ
  request : BatchRequest
  deriving DecidableEq, Repr

structure BatchSlot where
  state : BatchState
  batch : DeviceBatch
  rateOwned : Bool
  earlyStatus : Status
  earlyValid : Bool
  terminalStatus : Status
  graphReleased : Bool
  deriving DecidableEq, Repr

/-- A `DeviceRateTicket`: a slot of the backend and the batch and release that were put there. -/
structure BatchTicket (κ : Type*) where
  slot : κ
  batchId : ℕ
  identity : ℕ
  deriving DecidableEq

/-- `identity_matches`. -/
def BatchSlot.matches {κ : Type*} (slot : BatchSlot) (ticket : BatchTicket κ) : Bool :=
  slot.rateOwned && slot.batch.batchId == ticket.batchId &&
    slot.batch.request.rateIdentity == some ticket.identity

/-- Why the service looks at a slot: a completion that the vendor reported for an id, a failure of
the backend, a deadline, or a completion that the lane left ready. -/
inductive ServiceReason
  | completion (batchId : ℕ) (status : Status)
  | failure (status : Status)
  | timeout
  | ready
  deriving DecidableEq, Repr

/-- A completion or failure of a batch that is being submitted is offered to the lane, which may not
have returned from the vendor yet. -/
def ServiceReason.offers : ServiceReason → Bool
  | .completion _ _ | .failure _ => true
  | _ => false

/-- Who gave a rate batch its terminal result. -/
inductive SettledBy
  | finish
  | quarantine
  deriving DecidableEq, Repr

/-- The point a party has reached. -/
inductive BatchPc (κ : Type*)
  | idle
  -- `submit_batch`
  | searching (rest : List κ)
  | reserved (slot : κ)
  | filled (slot : κ)
  | counted (slot : κ)
  | unlocking
  -- `wait_rate_batch` and `release_rate_batch`
  | waiting (ticket : BatchTicket κ)
  | waitLoaded (ticket : BatchTicket κ) (state : BatchState)
  | waitClaiming (ticket : BatchTicket κ)
  | releaseLoaded (ticket : BatchTicket κ) (state : BatchState)
  | releasing (ticket : BatchTicket κ)
  | releaseFreeing (ticket : BatchTicket κ)
  -- `submission_loop`
  | scanning (rest : List κ) (candidate : Option (κ × ℕ))
  | sighted (slot : κ) (rest : List κ) (candidate : Option (κ × ℕ))
  | preferred (slot : κ) (rest : List κ)
  | checking (slot : κ) (index : ℕ)
  | comparing (slot : κ) (index : ℕ) (point : TimelinePoint)
  | notReady (slot : κ)
  | claiming (slot : κ)
  | calling (slot : κ)
  | rejected (slot : κ) (status : Status)
  | rejectedEarly (slot : κ)
  | accepted (slot : κ)
  | acceptedEarly (slot : κ)
  -- the service: a loaded state, then what follows from it
  | loaded (slot : κ) (state : BatchState) (reason : ServiceReason)
  | saw (slot : κ) (state : BatchState) (reason : ServiceReason)
  | aimed (slot : κ) (state : BatchState) (rate : Bool)
  | expired (slot : κ)
  | wrote (slot : κ) (reason : ServiceReason)
  -- `finish_batch_slot`, `retire_device_batch_slot`, `finish_rate_quarantine`
  | finishing (slot : κ) (status : Status) (publish : Bool)
  | publishing (slot : κ) (status : Status) (rest : List TimelinePoint)
  | settling (slot : κ) (status : Status)
  | retiring (slot : κ) (phaseIndex : ℕ) (status : Status) (release : Bool)
  | freeing (slot : κ) (phaseIndex : ℕ) (status : Status) (release : Bool)
  | completing (batchId phaseIndex : ℕ) (status : Status) (release : Bool)
  | quarantining (slot : κ) (status : Status)

/-- The submission lane, the service and any number of callers. -/
inductive BatchParty (τ : Type*)
  | lane
  | service
  | caller (thread : τ)
  deriving DecidableEq

/-- A backend's batches.  The last fields are kept for the statements: the batches in the order they
were accepted and handed to the vendor, the terminal results of rate batches, the calls of
`complete_external`, the batches whose slot was freed, and the tickets that `wait_rate_batch` has
handed a slot for and that no release has passed its checks with since. -/
structure BatchManager (κ τ : Type*) where
  slots : κ → BatchSlot
  pcs : BatchParty τ → BatchPc κ
  completed : ℕ → ℕ
  lastAccepted : ℕ → ℕ
  outstanding : ℕ
  admission : Bool
  nextSequence : ℕ
  nextBatchId : ℕ
  accepted : List DeviceBatch
  handed : List DeviceBatch
  settled : List (ℕ × SettledBy × Status)
  completions : List (ℕ × ℕ)
  freed : List ℕ
  held : List (BatchTicket κ)

/-- What the surroundings decide in a step of `submit_batch`: the request, if its commands and buffers
are in order, and how many ids other backends took meanwhile. -/
structure SubmitInput where
  request : Option BatchRequest
  skipped : ℕ

/-- What can happen next, with what the clocks and the vendor say. -/
inductive BatchAction (κ τ : Type*)
  | submit (thread : τ) (input : SubmitInput)
  | wait (thread : τ) (ticket : BatchTicket κ)
  | waitStep (thread : τ)
  | release (thread : τ) (ticket : BatchTicket κ)
  | releaseStep (thread : τ)
  | lane (late : Bool) (vendor : Status)
  | look (slot : κ) (reason : ServiceReason)
  | service
  | finish (party : BatchParty τ) (overdue : Bool)

end Data

section Steps

variable {κ τ : Type*} [DecidableEq κ] [DecidableEq τ]

namespace BatchManager

variable (s : BatchManager κ τ)

def setPc (x : BatchParty τ) (pc : BatchPc κ) : BatchManager κ τ :=
  { s with pcs := Function.update s.pcs x pc }

def setSlot (k : κ) (slot : BatchSlot) : BatchManager κ τ :=
  { s with slots := Function.update s.slots k slot }

def setState (k : κ) (state : BatchState) : BatchManager κ τ :=
  s.setSlot k { s.slots k with state := state }

/-- `compare_exchange_strong` on the state word, and where the party goes from there. -/
def cas (k : κ) (expected target : BatchState) (x : BatchParty τ)
    (success failure : BatchPc κ) : BatchManager κ τ :=
  if (s.slots k).state = expected then (s.setState k target).setPc x success
  else s.setPc x failure

/-- What `submit_batch` asks of the points of a batch: it signals something, signals go beyond what
was accepted before, waits do not, and no timeline is named twice.  A simulated batch is a rate
batch. -/
def admits (request : BatchRequest) : Bool :=
  request.signals ≠ [] ∧
    (∀ point ∈ request.waits, 0 < point.value ∧ point.value ≤ s.lastAccepted point.timeline) ∧
    (request.waits.map TimelinePoint.timeline).Nodup ∧
    (∀ point ∈ request.signals, s.lastAccepted point.timeline < point.value) ∧
    (request.signals.map TimelinePoint.timeline).Nodup ∧
    (request.simulated → request.rateIdentity.isSome)

/-- The slot as `submit_batch` fills it. -/
def fillSlot (k : κ) (request : BatchRequest) (skipped : ℕ) : BatchSlot :=
  { state := (s.slots k).state
    batch := ⟨s.nextBatchId + skipped, s.nextSequence, request⟩
    rateOwned := request.rateIdentity.isSome
    earlyStatus := .ok
    earlyValid := false
    terminalStatus := .ok
    graphReleased := false }

/-- An admitted request is put into the slot that was reserved for it. -/
def fill (k : κ) (request : BatchRequest) (skipped : ℕ) : BatchManager κ τ :=
  { s.setSlot k (s.fillSlot k request skipped) with
    lastAccepted := request.signals.foldl
      (fun accepted point => Function.update accepted point.timeline point.value) s.lastAccepted
    nextSequence := s.nextSequence + 1
    nextBatchId := s.nextBatchId + skipped + 1 }

/-- The next access of `submit_batch`. -/
def stepSubmit (allSlots : List κ) (s : BatchManager κ τ) (t : τ) (input : SubmitInput) :
    Option (BatchManager κ τ) :=
  match s.pcs (.caller t) with
  | .idle =>
    -- a caller that finds the lock taken returns `device_queue_full`
    if s.admission then none
    else some { s.setPc (.caller t) (.searching allSlots) with admission := true }
  | .searching (k :: rest) =>
    some (s.cas k .free .reserved (.caller t) (.reserved k) (.searching rest))
  | .searching [] => some (s.setPc (.caller t) .unlocking)
  | .reserved k =>
    match input.request.filter s.admits with
    | none => some ((s.setState k .free).setPc (.caller t) .unlocking)
    | some request => some ((s.fill k request input.skipped).setPc (.caller t) (.filled k))
  | .filled k => some { s.setPc (.caller t) (.counted k) with outstanding := s.outstanding + 1 }
  | .counted k =>
    some { (s.setState k .queued).setPc (.caller t) .unlocking with
      accepted := s.accepted ++ [(s.slots k).batch] }
  | .unlocking => some { s.setPc (.caller t) .idle with admission := false }
  | _ => none

/-- The next access of `wait_rate_batch`, which looks again until it can return. -/
def stepWait (t : τ) : Option (BatchManager κ τ) :=
  match s.pcs (.caller t) with
  | .waiting ticket => some (s.setPc (.caller t) (.waitLoaded ticket (s.slots ticket.slot).state))
  | .waitLoaded ticket state =>
    if (s.slots ticket.slot).matches ticket = false ∨ state = .free ∨ state = .reserved ∨
        state = .rateQuarantined then
      some (s.setPc (.caller t) .idle)
    else if state = .rateTerminal then some (s.setPc (.caller t) (.waitClaiming ticket))
    else some (s.setPc (.caller t) (.waiting ticket))
  | .waitClaiming ticket =>
    if (s.slots ticket.slot).state = .rateTerminal then
      some { (s.setState ticket.slot .owned).setPc (.caller t) .idle with
        held := s.held ++ [ticket] }
    else some (s.setPc (.caller t) (.waiting ticket))
  | _ => none

/-- The next access of `release_rate_batch`. -/
def stepRelease (t : τ) : Option (BatchManager κ τ) :=
  match s.pcs (.caller t) with
  | .releaseLoaded ticket state =>
    if state = .owned ∧ (s.slots ticket.slot).matches ticket = true then
      some { s.setPc (.caller t) (.releasing ticket) with held := s.held.erase ticket }
    else some (s.setPc (.caller t) .idle)
  | .releasing ticket =>
    some { s.setPc (.caller t) (.releaseFreeing ticket) with outstanding := s.outstanding - 1 }
  | .releaseFreeing ticket =>
    let slot := s.slots ticket.slot
    some { (s.setSlot ticket.slot
        { slot with rateOwned := false, earlyValid := false, state := .free }).setPc
          (.caller t) .idle with
      freed := s.freed ++ [slot.batch.batchId] }
  | _ => none

/-- A wait point that its timeline has reached. -/
def reached (point : TimelinePoint) : Bool :=
  point.value ≤ s.completed point.timeline

/-- The next access of `submission_loop`; `late` says whether the deadline of a batch that is not
ready has passed, `vendor` what the vendor's submit returns. -/
def stepLane (allSlots : List κ) (s : BatchManager κ τ) (late : Bool) (vendor : Status) :
    Option (BatchManager κ τ) :=
  match s.pcs .lane with
  | .idle => some (s.setPc .lane (.scanning allSlots none))
  | .scanning (k :: rest) candidate =>
    some (s.setPc .lane (if (s.slots k).state = .queued then .sighted k rest candidate
      else .scanning rest candidate))
  | .sighted k rest candidate =>
    some (s.setPc .lane (if ∀ c ∈ candidate, (s.slots k).batch.sequence < c.2 then .preferred k rest
      else .scanning rest candidate))
  | .preferred k rest =>
    some (s.setPc .lane (.scanning rest (some (k, (s.slots k).batch.sequence))))
  | .scanning [] none => some (s.setPc .lane .idle)
  | .scanning [] (some (k, _)) => some (s.setPc .lane (.checking k 0))
  | .checking k index =>
    match (s.slots k).batch.request.waits[index]? with
    | none => some (s.setPc .lane (.claiming k))
    | some point => some (s.setPc .lane (.comparing k index point))
  | .comparing k index point =>
    some (s.setPc .lane (if s.reached point then .checking k (index + 1) else .notReady k))
  | .notReady k =>
    if late then
      some (s.cas k .queued .owned .lane (.finishing k .deviceTimeout false) .idle)
    else some (s.setPc .lane .idle)
  | .claiming k =>
    if (s.slots k).state = .queued then
      some { (s.setState k .submitting).setPc .lane (.calling k) with
        handed := s.handed ++ [(s.slots k).batch] }
    else some (s.setPc .lane .idle)
  | .calling k =>
    some (s.setPc .lane (if vendor = .ok then .accepted k else .rejected k vendor))
  | .rejected k status =>
    some (s.cas k .submitting .owned .lane (.finishing k status false)
      (if (s.slots k).state = .earlyReady then .rejectedEarly k else .idle))
  | .rejectedEarly k =>
    some (s.cas k .earlyReady .owned .lane (.finishing k .deviceError false) .idle)
  | .accepted k =>
    some (s.cas k .submitting .submitted .lane .idle
      (if (s.slots k).state = .earlyReady then .acceptedEarly k else .idle))
  | .acceptedEarly k => some (s.cas k .earlyReady .completionReady .lane .idle .idle)
  | _ => none

/-- Whether the service acts on a slot in the state it loaded: `process_batch_completion`,
`fail_backend_batches`, and the two sweeps of `service_loop`. -/
def concerns (slot : BatchSlot) (state : BatchState) : ServiceReason → Bool
  | .completion batchId _ =>
    (state == .submitting || state == .submitted) && slot.batch.batchId == batchId
  | .failure _ =>
    state == .submitting || state == .queued || state == .submitted || state == .completionReady
  | .timeout =>
    state == .submitted || (state == .submitting && slot.rateOwned) ||
      (slot.batch.request.simulated && (state == .queued || state == .earlyReady))
  | .ready => state == .completionReady

/-- The early completion that the service writes before it offers it to the lane. -/
def writeEarly (slot : BatchSlot) : ServiceReason → BatchSlot
  | .completion _ status => { slot with earlyStatus := status, earlyValid := true }
  | .failure status => { slot with earlyStatus := status, earlyValid := false }
  | _ => slot

/-- Where the service goes with a slot that it has claimed from `state`, but for a timeout. -/
def claimed (slot : BatchSlot) (k : κ) (state : BatchState) : ServiceReason → BatchPc κ
  | .completion _ status => .finishing k status true
  | .failure status =>
    if state = .completionReady then .finishing k slot.earlyStatus slot.earlyValid
    else .finishing k status false
  | _ => .finishing k slot.earlyStatus slot.earlyValid

/-- The state by which a timeout claims a slot. -/
def timeoutTarget (rate : Bool) : BatchState := if rate then .rateQuarantineOwned else .owned

/-- Where the service goes with a slot that it has claimed by a timeout.  It asks the vendor to cancel
a batch that was sent; one that was not is quarantined whoever owns it. -/
def timedOut (k : κ) (state : BatchState) : BatchPc κ :=
  if state = .queued then .quarantining k .deviceTimeout else .expired k

/-- Where the service goes when the lane was faster than its offer. -/
def retry (k : κ) (state : BatchState) : ServiceReason → BatchPc κ
  | .completion batchId status =>
    if state = .submitted then .saw k .submitted (.completion batchId status) else .idle
  | .failure status =>
    if state = .queued ∨ state = .submitted ∨ state = .completionReady then
      .saw k state (.failure status)
    else .idle
  | _ => .idle

/-- The next access of the service after it has loaded the state of a slot. -/
def stepService : Option (BatchManager κ τ) :=
  match s.pcs .service with
  | .loaded k state reason =>
    some (s.setPc .service
      (if concerns (s.slots k) state reason then .saw k state reason else .idle))
  | .saw k state .timeout => some (s.setPc .service (.aimed k state (s.slots k).rateOwned))
  | .saw k state reason =>
    if state = .submitting ∧ reason.offers then
      some ((s.setSlot k (writeEarly (s.slots k) reason)).setPc .service (.wrote k reason))
    else some (s.cas k state .owned .service (claimed (s.slots k) k state reason) .idle)
  | .aimed k state rate =>
    some (s.cas k state (timeoutTarget rate) .service (timedOut k state) .idle)
  | .expired k =>
    some (s.setPc .service (if (s.slots k).rateOwned then .quarantining k .deviceTimeout
      else .finishing k .deviceTimeout false))
  | .wrote k reason =>
    some (s.cas k .submitting .earlyReady .service .idle (retry k (s.slots k).state reason))
  | _ => none

/-- The value of a timeline after a signal. -/
def signal (point : TimelinePoint) : ℕ → ℕ :=
  Function.update s.completed point.timeline (max (s.completed point.timeline) point.value)

/-- The next access of a party that finishes a slot it has claimed.  `overdue` says whether a
simulated batch has passed one of its deadlines. -/
def stepFinish (x : BatchParty τ) (overdue : Bool) :
    Option (BatchManager κ τ) :=
  match s.pcs x with
  | .finishing k status publish =>
    let request := (s.slots k).batch.request
    let status' := if request.simulated ∧ overdue ∧ status = .ok then .deviceTimeout else status
    let publish' := publish && !(request.simulated && status' != .ok)
    some (s.setPc x (.publishing k status' (if publish' then request.signals else [])))
  | .publishing k status (point :: rest) =>
    some { s.setPc x (.publishing k status rest) with completed := s.signal point }
  | .publishing k status [] => some (s.setPc x (.settling k status))
  | .settling k status =>
    let slot := s.slots k
    if slot.rateOwned then
      some { (s.setSlot k { slot with
          graphReleased := true, terminalStatus := status, state := .rateTerminal }).setPc x .idle with
        settled := s.settled ++ [(slot.batch.batchId, .finish, status)] }
    else
      some ((s.setSlot k { slot with graphReleased := true }).setPc x
        (.retiring k slot.batch.request.phaseIndex status (!slot.graphReleased)))
  | .retiring k phaseIndex status release =>
    some { s.setPc x (.freeing k phaseIndex status release) with outstanding := s.outstanding - 1 }
  | .freeing k phaseIndex status release =>
    let batchId := (s.slots k).batch.batchId
    some { (s.setState k .free).setPc x (.completing batchId phaseIndex status release) with
      freed := s.freed ++ [batchId] }
  | .completing batchId phaseIndex _ release =>
    some { s.setPc x .idle with
      completions := if release then s.completions ++ [(batchId, phaseIndex)] else s.completions }
  | .quarantining k status =>
    let slot := s.slots k
    some { (s.setSlot k { slot with
        graphReleased := true
        terminalStatus := status
        earlyValid := false
        state := .rateQuarantined }).setPc x .idle with
      settled := s.settled ++ [(slot.batch.batchId, .quarantine, status)] }
  | _ => none

/-- One access to shared memory by one party. -/
def act (allSlots : List κ) (s : BatchManager κ τ) : BatchAction κ τ → Option (BatchManager κ τ)
  | .submit t input => s.stepSubmit allSlots t input
  | .wait t ticket =>
    match s.pcs (.caller t) with
    | .idle => some (s.setPc (.caller t) (.waiting ticket))
    | _ => none
  | .waitStep t => s.stepWait t
  | .release t ticket =>
    match s.pcs (.caller t) with
    | .idle =>
      some (s.setPc (.caller t) (.releaseLoaded ticket (s.slots ticket.slot).state))
    | _ => none
  | .releaseStep t => s.stepRelease t
  | .lane late vendor => s.stepLane allSlots late vendor
  | .look k reason =>
    match s.pcs .service with
    | .idle =>
      -- `fail_backend_batches` is only called with an error
      if reason = .failure .ok then none
      else some (s.setPc .service (.loaded k (s.slots k).state reason))
    | _ => none
  | .service => s.stepService
  | .finish x overdue => s.stepFinish x overdue

end BatchManager

end Steps

end RtRuntime
