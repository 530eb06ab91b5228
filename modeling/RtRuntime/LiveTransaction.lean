import RtRuntime.Interleaving
import RtRuntime.LiveControl

/-!
# Step transactions of live controls

A step opens a transaction, closes boundaries, and settles.  Each close captures the staged updates
of its boundary and publishes a generation from the survivors into the buffer that is not active;
settling either makes every capture permanent or puts back the generation that was active when the
step began.  Producers stage updates all the while.

The occupancy counter of a mailbox is changed next to the state of a slot and read by nobody who
decides anything by it, so both are changed in one action here.
-/

namespace RtRuntime

section Model

inductive LiveSlotState
  | free
  | writing
  | staged
  | boundaryOwned
  | committed
  | replaced
  | missed
  | stopped
  | rolledBack
  deriving DecidableEq, Repr

/-- `terminal_state`. -/
def LiveSlotState.terminal : LiveSlotState → Bool
  | .committed | .replaced | .missed | .stopped | .rolledBack => true
  | _ => false

/-- The states that a mailbox counts in its occupancy. -/
def LiveSlotState.occupies : LiveSlotState → Bool
  | .staged | .boundaryOwned => true
  | _ => false

structure LiveSlot where
  state : LiveSlotState
  record : LiveControlUpdateRecord
  payload : List UInt8
  terminalGeneration : UInt64

structure LiveGeneration where
  generationIdentity : UInt64
  target : LiveControlBoundaryTarget
  records : List (LiveControlUpdateRecord × List UInt8)
  deriving DecidableEq, Repr

/-- An entry of `provisional_records`. -/
structure ProvisionalRecord (κ : Type*) where
  slot : κ
  generationIdentity : UInt64
  priorGenerationIdentity : UInt64
  survivor : Bool

/-- A finalized mailbox set: its slots in the order of a scan, the mailbox of each, the releases that
can be boundaries, and the identity a generation gets. -/
structure LiveMailboxes (κ μ : Type*) where
  slots : List κ
  nodup : slots.Nodup
  mailboxOf : κ → μ
  targets : List LiveRateTarget
  identify : LiveControlBoundaryTarget → List LiveControlUpdateRecord → UInt64

/-- Where a producer stands in `stage`. -/
inductive StagePc (κ : Type*)
  | idle
  | writing (slot : κ) (record : LiveControlUpdateRecord) (payload : List UInt8)
  | rechecking (slot : κ) (record : LiveControlUpdateRecord)

/-- Where the host stands: between calls, in the scan of `close_boundary`, or settling. -/
inductive HostPc (κ : Type*)
  | outside
  | scanning (target : LiveControlBoundaryTarget) (rest captured : List κ)
  | looked (target : LiveControlBoundaryTarget) (slot : κ) (current : Bool)
      (rest captured : List κ)
  | settling (success : Bool) (rest : List (ProvisionalRecord κ))

/-- A call that closes a boundary begins a scan of the slots. -/
def HostPc.enter {κ : Type*} (slots : List κ) : Option LiveControlBoundaryTarget → HostPc κ
  | none => .outside
  | some target => .scanning target slots []

structure LiveTransactionState (κ μ τ : Type*) where
  slots : κ → LiveSlot
  occupancy : μ → ℕ
  reservation : μ → Bool
  boundaries : LiveBoundaries
  generations : Bool → LiveGeneration
  activeGeneration : Bool
  hasGeneration : Bool
  transactionActive : Bool
  rollbackGeneration : Option LiveGeneration
  provisional : List (ProvisionalRecord κ)
  host : HostPc κ
  stagers : τ → StagePc κ
  /-- What the transaction did so far, for the statements: the generation that was active at its
  beginning, the last one it published, its captures and its settlements. -/
  begun : Option LiveGeneration
  published : Option LiveGeneration
  captured : List (κ × Bool)
  settled : List (κ × LiveSlotState)

variable {κ μ τ : Type*}

/-- `active_view`. -/
def LiveTransactionState.activeView (s : LiveTransactionState κ μ τ) : Option LiveGeneration :=
  if s.hasGeneration then some (s.generations s.activeGeneration) else none

inductive LiveAction (κ τ : Type*)
  | claim (t : τ) (slot : κ) (record : LiveControlUpdateRecord) (payload : List UInt8)
  | publish (t : τ)
  | recheck (t : τ)
  | closeAdmission
  | begin
  | close (call : BoundaryCall)
  | scan
  | settle (success : Bool)
  | settleNext

/-- Captured slots in the order of a generation, each with whether it survives: no later one of its
mailbox has the same kind. -/
def markSurvivors (record : κ → LiveControlUpdateRecord) : List κ → List (κ × Bool)
  | [] => []
  | slot :: later =>
    (slot, !later.any fun other =>
      (record other).mailboxIdentity == (record slot).mailboxIdentity &&
        (record other).updateKind == (record slot).updateKind) :: markSurvivors record later

variable [DecidableEq κ] [DecidableEq μ] [DecidableEq τ] (boxes : LiveMailboxes κ μ)
variable (s : LiveTransactionState κ μ τ)

namespace LiveTransactionState

/-- A slot changes its state, and the occupancy of its mailbox follows. -/
def setSlot (slot : κ) (value : LiveSlot) : LiveTransactionState κ μ τ :=
  { s with
    slots := Function.update s.slots slot value
    occupancy := Function.update s.occupancy (boxes.mailboxOf slot)
      (s.occupancy (boxes.mailboxOf slot) + (if value.state.occupies then 1 else 0) -
        if (s.slots slot).state.occupies then 1 else 0) }

def setState (slot : κ) (state : LiveSlotState) : LiveTransactionState κ μ τ :=
  s.setSlot boxes slot { s.slots slot with state := state }

/-- `stage` reserves its mailbox and takes a free slot, or reclaims one that is terminal.  That the
admission was open has been read before and may be over. -/
def claim (t : τ) (slot : κ) (record : LiveControlUpdateRecord) (payload : List UInt8) :
    Option (LiveTransactionState κ μ τ) :=
  match s.stagers t with
  | .idle =>
    if slot ∈ boxes.slots ∧ s.reservation (boxes.mailboxOf slot) = false ∧
        ((s.slots slot).state = .free ∨ (s.slots slot).state.terminal = true) then
      some { s.setState boxes slot .writing with
        reservation := Function.update s.reservation (boxes.mailboxOf slot) true
        stagers := Function.update s.stagers t (.writing slot record payload) }
    else none
  | _ => none

/-- `stage` fills the slot and makes it visible. -/
def publish (t : τ) : Option (LiveTransactionState κ μ τ) :=
  match s.stagers t with
  | .writing slot record payload =>
    some { s.setSlot boxes slot
        { state := .staged, record := record, payload := payload, terminalGeneration := 0 } with
      stagers := Function.update s.stagers t (.rechecking slot record) }
  | _ => none

/-- `stage` looks again whether it came too late, and withdraws the update if nobody has taken it. -/
def recheck (t : τ) : Option (LiveTransactionState κ μ τ) :=
  match s.stagers t with
  | .rechecking slot record =>
    let state :=
      if (s.slots slot).state ≠ .staged then (s.slots slot).state
      else if !s.boundaries.admissionOpen then .stopped
      else if s.boundaries.targetClosed boxes.targets record then .missed
      else .staged
    some { s.setState boxes slot state with
      reservation := Function.update s.reservation (boxes.mailboxOf slot) false
      stagers := Function.update s.stagers t .idle }
  | _ => none

/-- `begin_step_transaction`. -/
def begin : Option (LiveTransactionState κ μ τ) :=
  match s.host with
  | .outside =>
    if s.transactionActive then none
    else some { s with
      transactionActive := true
      provisional := []
      rollbackGeneration := s.activeView
      begun := s.activeView
      published := none
      captured := []
      settled := [] }
  | _ => none

/-- A call inside the transaction; if it closes a boundary, the scan of the slots begins. -/
def close (call : BoundaryCall) : Option (LiveTransactionState κ μ τ) :=
  match s.host with
  | .outside =>
    if s.transactionActive then
      some { s with
        boundaries := (s.boundaries.call boxes.targets call).1
        host := .enter boxes.slots (s.boundaries.call boxes.targets call).2 }
    else none
  | _ => none

/-- The end of `close_boundary`: the captured slots are sorted, and if there are any a generation is
made of the survivors in the buffer that is not active. -/
def publishGeneration
    (target : LiveControlBoundaryTarget) (captured : List κ) : LiveTransactionState κ μ τ :=
  let marked := markSurvivors (fun slot => (s.slots slot).record)
    (captured.mergeSort fun left right =>
      captureOrder (s.slots left).record (s.slots right).record)
  let surviving := (marked.filter (·.2)).map (·.1)
  if surviving = [] then { s with host := .outside }
  else
    let identity := boxes.identify target (surviving.map fun slot => (s.slots slot).record)
    let generation : LiveGeneration :=
      { generationIdentity := identity
        target := target
        records := surviving.map fun slot => ((s.slots slot).record, (s.slots slot).payload) }
    { s with
      host := .outside
      generations := Function.update s.generations (!s.activeGeneration) generation
      activeGeneration := !s.activeGeneration
      hasGeneration := true
      provisional := s.provisional ++ marked.map fun entry =>
        { slot := entry.1
          generationIdentity := identity
          priorGenerationIdentity := (s.activeView.map (·.generationIdentity)).getD 0
          survivor := entry.2 }
      published := some generation
      captured := s.captured ++ marked }

/-- One step of the scan: a look at the next slot, or the compare-exchange that takes the slot looked
at.  An update whose boundary has passed without it becomes missed. -/
def scan : Option (LiveTransactionState κ μ τ) :=
  match s.host with
  | .scanning target (slot :: rest) captured =>
    let current := (s.slots slot).record.current target
    if (s.slots slot).state = .staged ∧
        (current || s.boundaries.targetClosed boxes.targets (s.slots slot).record) = true then
      some { s with host := .looked target slot current rest captured }
    else some { s with host := .scanning target rest captured }
  | .looked target slot current rest captured =>
    if (s.slots slot).state = .staged then
      if current then
        some { s.setState boxes slot .boundaryOwned with
          host := .scanning target rest (captured ++ [slot]) }
      else
        some { s.setSlot boxes slot
            { s.slots slot with state := .missed, terminalGeneration := 0 } with
          host := .scanning target rest captured }
    else some { s with host := .scanning target rest captured }
  | .scanning target [] captured => some (s.publishGeneration boxes target captured)
  | _ => none

/-- `settle_step_transaction` up to its loop: a failed step copies the generation it began with into
the buffer that is not active and makes that one active. -/
def settle (success : Bool) : Option (LiveTransactionState κ μ τ) :=
  match s.host with
  | .outside =>
    if s.transactionActive then
      some
        (if success then { s with host := .settling success s.provisional }
        else match s.rollbackGeneration with
          | some generation =>
            { s with
              host := .settling success s.provisional
              generations := Function.update s.generations (!s.activeGeneration) generation
              activeGeneration := !s.activeGeneration
              hasGeneration := true }
          | none => { s with host := .settling success s.provisional, hasGeneration := false })
    else none
  | _ => none

end LiveTransactionState

/-- The state in which a captured slot ends. -/
def settledState (success survivor : Bool) : LiveSlotState :=
  if success then if survivor then .committed else .replaced else .rolledBack

/-- One round of the loop of `settle_step_transaction`, or its end. -/
def LiveTransactionState.settleNext : Option (LiveTransactionState κ μ τ) :=
  match s.host with
  | .settling success (entry :: rest) =>
    some { s.setSlot boxes entry.slot
        { s.slots entry.slot with
          state := settledState success entry.survivor
          terminalGeneration := entry.generationIdentity } with
      host := .settling success rest
      settled := s.settled ++ [(entry.slot, settledState success entry.survivor)] }
  | .settling _ [] => some { s with host := .outside, provisional := [], transactionActive := false }
  | _ => none

def LiveTransactionState.act : LiveAction κ τ → Option (LiveTransactionState κ μ τ)
  | .claim t slot record payload => s.claim boxes t slot record payload
  | .publish t => s.publish boxes t
  | .recheck t => s.recheck boxes t
  | .closeAdmission =>
    some { s with boundaries := { s.boundaries with admissionOpen := false } }
  | .begin => s.begin
  | .close call => s.close boxes call
  | .scan => s.scan boxes
  | .settle success => s.settle success
  | .settleNext => s.settleNext boxes

end Model

end RtRuntime
