import RtRuntime.Basic

/-!
# The life of extension services

An extension brings services with it, each with the callbacks `initialize`, `request_stop`,
`quiesce` and `shutdown`.  The runtime drives all of them through three routines,
`initialize_extension_services`, `request_extension_stop` and `cleanup_extension_services`.  Each of
them may fail in the middle and may be tried again, and what has been done already is kept in four
flags per service.

The model records every callback together with its result and with the device backends of the
extension that were unreleased at that moment.  The result of the `n`-th callback is the `n`-th
entry of an arbitrary sequence.
-/

namespace RtRuntime

open Function List

namespace Services

/-! ## What a service sees -/

inductive Callback where
  | initializeService
  | requestStop
  | quiesce
  | shutdown
  deriving DecidableEq, Repr

/-- A service by its extension and its index there. -/
structure Ref where
  extension : ℕ
  service : ℕ
  deriving DecidableEq, Repr

/-- A callback that was made, its result, and the backends that were unreleased. -/
structure Call where
  service : Ref
  callback : Callback
  status : Status
  pending : List ℕ
  deriving DecidableEq, Repr

def Call.Succeeds (call : Call) (callback : Callback) : Prop :=
  call.callback = callback ∧ call.status = .ok

/-- A callback has succeeded and `initialize` has not been called since. -/
def Since (callback : Callback) (calls : List Call) : Prop :=
  ∃ before call after, calls = before ++ call :: after ∧ call.Succeeds callback ∧
    ∀ later ∈ after, later.callback ≠ .initializeService

/-- What a callback needs of the calls before it, where some backends are related to the service. -/
structure Allowed (related : ℕ → Bool) (before : List Call) (call : Call) : Prop where
  quiesce : call.callback = .quiesce → Since .requestStop before
  shutdown : call.callback = .shutdown → Since .quiesce before
  backends : call.callback = .shutdown → ∀ backend ∈ call.pending, related backend = false
  ended : call.callback ≠ .initializeService → ¬ Since .shutdown before

/-- Every call was allowed when it was made. -/
def Orderly (related : ℕ → Bool) (calls : List Call) : Prop :=
  ∀ before call after, calls = before ++ call :: after → Allowed related before call

/-- Every `initialize` was followed by a successful `shutdown`. -/
def Down (calls : List Call) : Prop :=
  ∀ before call after, calls = before ++ call :: after → call.callback = .initializeService →
    ∃ later ∈ after, later.Succeeds .shutdown

section Snoc

variable {calls before after : List Call} {call last : Call} {callback : Callback}
  {related : ℕ → Bool}

theorem Since.snoc (since : Since callback calls) (other : last.callback ≠ .initializeService) :
    Since callback (calls ++ [last]) := by
  obtain ⟨before, call, after, rfl, succeeds, none⟩ := since
  exact ⟨before, call, after ++ [last], by simp, succeeds, forall_mem_concat.mpr ⟨none, other⟩⟩

theorem Since.of_succeeds (succeeds : last.Succeeds callback) : Since callback (calls ++ [last]) :=
  ⟨calls, last, [], rfl, succeeds, forall_mem_nil _⟩

theorem Since.of_snoc (since : Since callback (calls ++ [last])) :
    last.Succeeds callback ∨ last.callback ≠ .initializeService ∧ Since callback calls := by
  obtain ⟨before, call, after, split, succeeds, none⟩ := since
  obtain ⟨-, rfl, -⟩ | ⟨rest, rfl, rfl⟩ := concat_split split
  · exact .inl succeeds
  · refine .inr ⟨none last (by simp), before, call, rest, rfl, succeeds, fun later member => ?_⟩
    exact none later (mem_append_left _ member)

theorem Orderly.snoc (orderly : Orderly related calls) (allowed : Allowed related calls last) :
    Orderly related (calls ++ [last]) := by
  intro before call after split
  obtain ⟨rfl, rfl, -⟩ | ⟨rest, -, rfl⟩ := concat_split split
  · exact allowed
  · exact orderly before call rest rfl

theorem Down.of_shutdown (succeeds : last.Succeeds .shutdown) : Down (calls ++ [last]) := by
  intro before call after split starts
  obtain ⟨-, rfl, -⟩ | ⟨rest, rfl, -⟩ := concat_split split
  · exact absurd (succeeds.1.symm.trans starts) (by decide)
  · exact ⟨last, by simp, succeeds⟩

end Snoc

/-! ## The runtime -/

/-- The flags of an `ExtensionServiceOwner`, as `initialize_from` leaves them. -/
structure Flags where
  initialized : Bool := false
  stopRequested : Bool := false
  quiesced : Bool := false
  released : Bool := true
  deriving DecidableEq, Repr

/-- The states of an extension that the routines write. -/
inductive Lifecycle where
  | registered
  | running
  | stopRequested
  | quiescent
  | failed
  | cleanupPending
  | detached
  deriving DecidableEq, Repr

/-- The counts of a registration, and `service_backend_relationships`. -/
structure Extension where
  services : ℕ
  backends : ℕ
  related : ℕ → ℕ → Bool

/-- The table of extensions, with empty slots, and the results of the callbacks in their order. -/
structure Host where
  extensions : List (Option Extension)
  results : ℕ → Status

structure State where
  flags : Ref → Flags := fun _ => {}
  /-- `released` of a backend, by its extension. -/
  backendReleased : ℕ → ℕ → Bool := fun _ _ => true
  /-- What `callbacks_quiescent` would answer. -/
  callbacksQuiescent : ℕ → Bool := fun _ => true
  lifecycle : ℕ → Lifecycle := fun _ => .registered
  unloadReady : ℕ → Bool := fun _ => false
  calls : List Call := []

namespace State

def withFlags (s : State) (ref : Ref) (flags : Flags) : State :=
  { s with flags := Function.update s.flags ref flags }

def withLifecycle (s : State) (extension : ℕ) (lifecycle : Lifecycle) : State :=
  { s with lifecycle := Function.update s.lifecycle extension lifecycle }

/-- The calls that one service has seen. -/
def seen (s : State) (ref : Ref) : List Call := s.calls.filter (·.service = ref)

end State

/-- The first error is kept. -/
def firstError (first status : Status) : Status := if first = .ok then status else first

theorem firstError_eq_ok {first status : Status} :
    firstError first status = .ok ↔ first = .ok ∧ status = .ok := by
  unfold firstError
  split <;> simp_all

namespace Host

variable (host : Host)

def extension? (index : ℕ) : Option Extension := (host.extensions[index]?).join

variable {host} in
theorem extension?_lt {index : ℕ} {extension : Extension}
    (present : host.extension? index = some extension) : index < host.extensions.length := by
  have slot := Option.join_eq_some_iff.mp present
  exact (List.getElem?_eq_some_iff.mp slot).choose

variable (s : State)

/-- The extension in a slot, unless a loop passes it over. -/
def active (index : ℕ) : Option Extension :=
  if s.unloadReady index then none else host.extension? index

/-- A backend of the extension is declared as related to a service. -/
def related (ref : Ref) (backend : ℕ) : Bool :=
  (host.extension? ref.extension).any fun extension => extension.related ref.service backend

/-- The unreleased backends of an extension. -/
def pending (index : ℕ) : List ℕ :=
  ((host.extension? index).elim [] fun extension => List.range extension.backends).filter
    fun backend => !s.backendReleased index backend

/-- The result of the next callback. -/
def result : Status := host.results s.calls.length

/-- What is recorded of it. -/
def nextCall (ref : Ref) (callback : Callback) : Call :=
  ⟨ref, callback, host.result s, host.pending s ref.extension⟩

def call (ref : Ref) (callback : Callback) : State :=
  { s with calls := s.calls ++ [host.nextCall s ref callback] }

/-- A callback that is not repeated once it is done; its success is marked in the flags. -/
def callOnce (callback : Callback) (done : Flags → Bool) (mark : Flags → Flags) (s : State)
    (ref : Ref) : Status × State :=
  if done (s.flags ref) then (.ok, s)
  else if host.result s = .ok then
    (.ok, (host.call s ref callback).withFlags ref (mark (s.flags ref)))
  else (host.result s, host.call s ref callback)

def callInitialize (ref : Ref) : Status × State :=
  if (s.flags ref).initialized then (.ok, s)
  else
    host.callOnce .initializeService (fun _ => false)
      (fun flags => { flags with initialized := true })
      (s.withFlags ref
        { s.flags ref with stopRequested := false, quiesced := false, released := false }) ref

def callRequestStop : State → Ref → Status × State :=
  host.callOnce .requestStop (fun flags => flags.released || flags.stopRequested)
    fun flags => { flags with stopRequested := true }

def callQuiesce : State → Ref → Status × State :=
  host.callOnce .quiesce (fun flags => flags.quiesced || flags.released)
    fun flags => { flags with quiesced := true }

def callShutdown : State → Ref → Status × State :=
  host.callOnce .shutdown (fun flags => flags.released)
    fun flags => { flags with released := true, initialized := false }

/-! ### Stop -/

def stopService (index : ℕ) (first : Status × State) (service : ℕ) : Status × State :=
  let (status, s) := host.callRequestStop first.2 ⟨index, service⟩
  (firstError first.1 status, s)

def stopExtension (first : Status × State) (index : ℕ) : Status × State :=
  match host.active first.2 index with
  | none => first
  | some extension =>
    (List.range extension.services).foldl (host.stopService index)
      (first.1, first.2.withLifecycle index .stopRequested)

/-- `request_extension_stop`. -/
def requestExtensionStop : Status × State :=
  (List.range host.extensions.length).foldl host.stopExtension (.ok, s)

/-! ### Cleanup -/

/-- A related backend holds a service back. -/
def backendPending (index service : ℕ) (extension : Extension) : Bool :=
  (List.range extension.backends).any fun backend =>
    extension.related service backend && !s.backendReleased index backend

def backendsReleased (index : ℕ) (extension : Extension) : Bool :=
  (List.range extension.backends).all fun backend => s.backendReleased index backend

def servicesReleased (index : ℕ) (extension : Extension) : Bool :=
  (List.range extension.services).all fun service => (s.flags ⟨index, service⟩).released

def cleanupService (index : ℕ) (extension : Extension) (first : Status × State) (service : ℕ) :
    Status × State :=
  let flags := first.2.flags ⟨index, service⟩
  if !flags.released && !flags.stopRequested then (firstError first.1 .invalidState, first.2)
  else if backendPending first.2 index service extension then
    (firstError first.1 .invalidState, first.2)
  else
    match host.callQuiesce first.2 ⟨index, service⟩ with
    | (.ok, s) =>
      let (status, s) := host.callShutdown s ⟨index, service⟩
      (firstError first.1 status, s)
    | (status, s) => (firstError first.1 status, s)

def cleanupExtension (first : Status × State) (index : ℕ) : Status × State :=
  match host.active first.2 index with
  | none => first
  | some extension =>
    let (status, s) := (List.range extension.services).reverse.foldl
      (host.cleanupService index extension) first
    if s.callbacksQuiescent index && backendsReleased s index extension &&
        servicesReleased s index extension then
      (status, s.withLifecycle index .quiescent)
    else (firstError status .invalidState, s.withLifecycle index .cleanupPending)

/-- `cleanup_extension_services`. -/
def cleanupExtensionServices : Status × State :=
  (List.range host.extensions.length).reverse.foldl host.cleanupExtension (.ok, s)

/-! ### Start -/

/-- The services of one extension are initialized in order until one fails. -/
def initializeEach (index : ℕ) : List ℕ → State → Status × State
  | [], s => (.ok, s)
  | service :: rest, s =>
    match host.callInitialize s ⟨index, service⟩ with
    | (.ok, s) => initializeEach index rest s
    | (status, s) => (status, s)

def initializeExtensions : List ℕ → State → Status × State
  | [], s => (.ok, s)
  | index :: rest, s =>
    match host.active s index with
    | none => initializeExtensions rest s
    | some extension =>
      match host.initializeEach index (List.range extension.services)
          (s.withLifecycle index .registered) with
      | (.ok, s) => initializeExtensions rest s
      | (status, s) =>
        let (_, s) := host.requestExtensionStop (s.withLifecycle index .failed)
        let (cleanup, s) := host.cleanupExtensionServices s
        (if cleanup = .ok then status else cleanup, s)

/-- `initialize_extension_services`. -/
def initializeExtensionServices : Status × State :=
  host.initializeExtensions (List.range host.extensions.length) s

/-! ### Runs -/

/-- `detach_extension`, as far as it looks at the extension. -/
def detach (index : ℕ) : State :=
  match host.extension? index with
  | none => s
  | some extension =>
    if s.lifecycle index = .quiescent ∧ s.callbacksQuiescent index ∧
        backendsReleased s index extension ∧ servicesReleased s index extension then
      { s.withLifecycle index .detached with
        unloadReady := Function.update s.unloadReady index true }
    else s

/-- The end of a successful start. -/
def markRunning : State :=
  { s with lifecycle := fun index =>
      if (host.active s index).isSome then .running else s.lifecycle index }

end Host

/-- What happens between two calls of the host: an attempt of one of the routines, or a change that
other parts of the runtime make to what the routines read. -/
inductive Attempt where
  | initializeServices
  | requestStop
  | cleanup
  | running
  | detach (extension : ℕ)
  | backend (extension backend : ℕ) (released : Bool)
  | callbacks (extension : ℕ) (quiescent : Bool)
  deriving DecidableEq, Repr

namespace Host

variable (host : Host)

def step (s : State) : Attempt → State
  | .initializeServices => (host.initializeExtensionServices s).2
  | .requestStop => (host.requestExtensionStop s).2
  | .cleanup => (host.cleanupExtensionServices s).2
  | .running => host.markRunning s
  | .detach index => host.detach s index
  | .backend index backend released =>
    { s with
      backendReleased := Function.update s.backendReleased index
        (Function.update (s.backendReleased index) backend released) }
  | .callbacks index quiescent =>
    { s with callbacksQuiescent := Function.update s.callbacksQuiescent index quiescent }

/-- The state after a sequence of attempts, from the registration on. -/
def run (attempts : List Attempt) : State := attempts.foldl host.step {}

end Host

/-! ## Flags and calls agree -/

/-- What the flags of a service say about the calls it has seen. -/
structure Tracks (related : ℕ → Bool) (flags : Flags) (seen : List Call) : Prop where
  stop : flags.stopRequested = true → flags.released = false → Since .requestStop seen
  quiet : flags.quiesced = true → flags.released = false → Since .quiesce seen
  up : flags.released = false → ¬ Since .shutdown seen
  down : flags.released = true → Down seen
  orderly : Orderly related seen

namespace Tracks

variable {related : ℕ → Bool} {flags : Flags} {seen : List Call} {call : Call}

/-- A call of a service that is not released, and that is neither `initialize` nor a successful
`shutdown`: nothing is forgotten, and success may be marked. -/
theorem keep (tracks : Tracks related flags seen) (up : flags.released = false)
    (allowed : Allowed related seen call) (other : call.callback ≠ .initializeService)
    (fails : ¬ call.Succeeds .shutdown) {marked : Flags}
    (stop : marked.stopRequested = true →
      flags.stopRequested = true ∨ call.Succeeds .requestStop)
    (quiet : marked.quiesced = true → flags.quiesced = true ∨ call.Succeeds .quiesce)
    (still : marked.released = false) : Tracks related marked (seen ++ [call]) where
  stop requested _ := by
    rcases stop requested with before | now
    · exact (tracks.stop before up).snoc other
    · exact .of_succeeds now
  quiet quiesced _ := by
    rcases quiet quiesced with before | now
    · exact (tracks.quiet before up).snoc other
    · exact .of_succeeds now
  up _ since := by
    rcases since.of_snoc with now | ⟨-, before⟩
    · exact fails now
    · exact tracks.up up before
  down released := absurd (still.symm.trans released) Bool.false_ne_true
  orderly := tracks.orderly.snoc allowed

theorem started (tracks : Tracks related flags seen) (callback : call.callback = .initializeService)
    {marked : Flags} (stop : marked.stopRequested = false) (quiet : marked.quiesced = false)
    (up : marked.released = false) : Tracks related marked (seen ++ [call]) where
  stop requested := absurd (stop.symm.trans requested) Bool.false_ne_true
  quiet quiesced := absurd (quiet.symm.trans quiesced) Bool.false_ne_true
  up _ since := by
    rcases since.of_snoc with now | ⟨other, -⟩
    · exact absurd (callback.symm.trans now.1) (by decide)
    · exact other callback
  down released := absurd (up.symm.trans released) Bool.false_ne_true
  orderly := by
    refine tracks.orderly.snoc ⟨?_, ?_, ?_, fun other => absurd callback other⟩
    all_goals exact fun now => absurd (callback.symm.trans now) (by decide)

theorem shutdown (tracks : Tracks related flags seen) (allowed : Allowed related seen call)
    (succeeds : call.Succeeds .shutdown) {marked : Flags} (released : marked.released = true) :
    Tracks related marked (seen ++ [call]) where
  stop _ up := absurd (up.symm.trans released) Bool.false_ne_true
  quiet _ up := absurd (up.symm.trans released) Bool.false_ne_true
  up up := absurd (up.symm.trans released) Bool.false_ne_true
  down _ := .of_shutdown succeeds
  orderly := tracks.orderly.snoc allowed

end Tracks

/-- The invariant of a run: the flags of every service track its calls, and what is unloaded has
released its services. -/
structure Lawful (host : Host) (unloaded : ℕ → Bool) (s : State) : Prop where
  unloadReady : s.unloadReady = unloaded
  tracks : ∀ ref, Tracks (host.related ref) (s.flags ref) (s.seen ref)
  released : ∀ index, unloaded index = true → ∀ extension,
    host.extension? index = some extension → Host.servicesReleased s index extension = true

theorem servicesReleased_iff {s : State} {index : ℕ} {extension : Extension} :
    Host.servicesReleased s index extension = true ↔
      ∀ service < extension.services, (s.flags ⟨index, service⟩).released = true := by
  simp [Host.servicesReleased]

theorem Lawful.start (host : Host) : Lawful host (fun _ => false) {} where
  unloadReady := rfl
  tracks ref := by
    have none {before after : List Call} {call : Call} :
        State.seen {} ref ≠ before ++ call :: after := by simp [State.seen]
    refine ⟨nofun, nofun, nofun, ?_, ?_⟩
    · exact fun _ before call after split => absurd split none
    · exact fun before call after split => absurd split none
  released _ unloaded := absurd unloaded Bool.false_ne_true

/-- A change to what the routines read, or to what they only write. -/
theorem Lawful.aside {host : Host} {unloaded : ℕ → Bool} {s t : State}
    (lawful : Lawful host unloaded s) (flags : t.flags = s.flags) (calls : t.calls = s.calls)
    (unloadReady : t.unloadReady = s.unloadReady) : Lawful host unloaded t where
  unloadReady := unloadReady.trans lawful.unloadReady
  tracks ref := by
    rw [flags, State.seen, calls]
    exact lawful.tracks ref
  released index unloaded extension present := by
    simpa only [Host.servicesReleased, flags] using lawful.released index unloaded extension present

/-! ## Single callbacks -/

namespace Host

variable {host : Host} {unloaded : ℕ → Bool} {s : State} {ref : Ref} {callback : Callback}
  {done : Flags → Bool} {mark : Flags → Flags}

theorem seen_call (s : State) (ref other : Ref) (callback : Callback) :
    (host.call s ref callback).seen other =
      if other = ref then s.seen other ++ [host.nextCall s ref callback] else s.seen other := by
  rw [State.seen, call, filter_append, ← State.seen]
  by_cases same : other = ref
  · simp [same, nextCall]
  · simp [same, nextCall, Ne.symm same]

/-- A callback of a service that is still loaded keeps the invariant if the flags of this service
track the call. -/
theorem lawful_call (lawful : Lawful host unloaded s) (loaded : unloaded ref.extension = false)
    {flags : Flags} (tracks : Tracks (host.related ref) flags
      (s.seen ref ++ [host.nextCall s ref callback])) :
    Lawful host unloaded ((host.call s ref callback).withFlags ref flags) where
  unloadReady := lawful.unloadReady
  tracks other := by
    change Tracks _ (update s.flags ref flags other)
      ((host.call s ref callback).seen other)
    rw [seen_call]
    by_cases same : other = ref
    · subst same
      rwa [update_self, if_pos rfl]
    · rw [update_of_ne same, if_neg same]
      exact lawful.tracks other
  released index gone extension present := by
    have before := servicesReleased_iff.mp (lawful.released index gone extension present)
    refine servicesReleased_iff.mpr fun service small => ?_
    have different : (⟨index, service⟩ : Ref) ≠ ref := by
      rintro rfl
      exact Bool.false_ne_true (loaded.symm.trans gone)
    change (update s.flags ref flags _).released = true
    rw [update_of_ne different]
    exact before service small

theorem withFlags_flags (s : State) (ref : Ref) : s.withFlags ref (s.flags ref) = s := by
  simp [State.withFlags]

section

variable (lawful : Lawful host unloaded s) (loaded : unloaded ref.extension = false)
include lawful loaded

/-- The same for a callback that is made once: what is to be shown is that the flags track the call
when they are marked, and when they are not. -/
theorem lawful_callOnce
    (ok : done (s.flags ref) = false → (host.nextCall s ref callback).status = .ok →
      Tracks (host.related ref) (mark (s.flags ref))
        (s.seen ref ++ [host.nextCall s ref callback]))
    (fails : done (s.flags ref) = false → (host.nextCall s ref callback).status ≠ .ok →
      Tracks (host.related ref) (s.flags ref) (s.seen ref ++ [host.nextCall s ref callback])) :
    Lawful host unloaded (host.callOnce callback done mark s ref).2 := by
  unfold callOnce
  split
  · exact lawful
  · rename_i needed
    have needed := Bool.eq_false_of_not_eq_true needed
    split
    · rename_i succeeds
      exact lawful_call lawful loaded (ok needed succeeds)
    · rename_i failed
      have kept := lawful_call lawful loaded (fails needed failed)
      rwa [show s.flags ref = (host.call s ref callback).flags ref from rfl,
        withFlags_flags] at kept

theorem lawful_callRequestStop : Lawful host unloaded (host.callRequestStop s ref).2 := by
  have tracks := lawful.tracks ref
  have allowed (up : (s.flags ref).released = false) :
      Allowed (host.related ref) (s.seen ref) (host.nextCall s ref .requestStop) :=
    ⟨nofun, nofun, nofun, fun _ => tracks.up up⟩
  refine lawful_callOnce lawful loaded (fun needed succeeds => ?_) (fun needed fails => ?_)
  all_goals
    obtain ⟨up, -⟩ := Bool.or_eq_false_iff.mp needed
  · exact tracks.keep up (allowed up) nofun nofun (fun _ => .inr ⟨rfl, succeeds⟩) .inl up
  · exact tracks.keep up (allowed up) nofun nofun .inl .inl up

/-- `quiesce` is allowed once a stop request has succeeded. -/
theorem lawful_callQuiesce
    (stopped : (s.flags ref).released = false → (s.flags ref).stopRequested = true) :
    Lawful host unloaded (host.callQuiesce s ref).2 := by
  have tracks := lawful.tracks ref
  have allowed (up : (s.flags ref).released = false) :
      Allowed (host.related ref) (s.seen ref) (host.nextCall s ref .quiesce) :=
    ⟨fun _ => tracks.stop (stopped up) up, nofun, nofun, fun _ => tracks.up up⟩
  refine lawful_callOnce lawful loaded (fun needed succeeds => ?_) (fun needed fails => ?_)
  all_goals
    obtain ⟨-, up⟩ := Bool.or_eq_false_iff.mp needed
  · exact tracks.keep up (allowed up) nofun nofun .inl (fun _ => .inr ⟨rfl, succeeds⟩) up
  · exact tracks.keep up (allowed up) nofun nofun .inl .inl up

/-- `shutdown` is allowed once `quiesce` has succeeded and the related backends are released. -/
theorem lawful_callShutdown (quiet : (s.flags ref).released = false → (s.flags ref).quiesced = true)
    (backends : ∀ backend ∈ host.pending s ref.extension, host.related ref backend = false) :
    Lawful host unloaded (host.callShutdown s ref).2 := by
  have tracks := lawful.tracks ref
  have allowed (up : (s.flags ref).released = false) :
      Allowed (host.related ref) (s.seen ref) (host.nextCall s ref .shutdown) :=
    ⟨nofun, fun _ => tracks.quiet (quiet up) up, fun _ => backends, fun _ => tracks.up up⟩
  refine lawful_callOnce lawful loaded (fun up succeeds => ?_) (fun up fails => ?_)
  · exact tracks.shutdown (allowed up) ⟨rfl, succeeds⟩ rfl
  · exact tracks.keep up (allowed up) nofun (fun shutdown => fails shutdown.2) .inl .inl up

/-- A service may be initialized in every state of its flags.  They are cleared before the callback,
when they do not track the calls yet. -/
theorem lawful_callInitialize : Lawful host unloaded (host.callInitialize s ref).2 := by
  have marks {flags : Flags} (stop : flags.stopRequested = false) (quiet : flags.quiesced = false)
      (up : flags.released = false) :
      Lawful host unloaded ((host.call s ref .initializeService).withFlags ref flags) :=
    lawful_call lawful loaded ((lawful.tracks ref).started rfl stop quiet up)
  unfold callInitialize callOnce
  split
  · exact lawful
  · rw [if_neg Bool.false_ne_true]
    split
    · have cleared (flags flags' : Flags) :
          (host.call (s.withFlags ref flags) ref .initializeService).withFlags ref flags' =
            (host.call s ref .initializeService).withFlags ref flags' := by
        simp [State.withFlags, call, nextCall, result, pending]
      rw [cleared]
      refine marks ?_ ?_ ?_
      all_goals simp [State.withFlags]
    · exact marks rfl rfl rfl

end

/-! ## Stop -/

variable {index : ℕ} {extension : Extension}

theorem unloaded_of_active (lawful : Lawful host unloaded s)
    (active : host.active s index = some extension) : unloaded index = false := by
  rw [Host.active, lawful.unloadReady] at active
  split at active
  · cases active
  · rename_i loaded
    exact Bool.eq_false_of_not_eq_true loaded

variable {first : Status × State}

theorem lawful_stopExtension (index : ℕ) (lawful : Lawful host unloaded first.2) :
    Lawful host unloaded (host.stopExtension first index).2 := by
  unfold stopExtension
  split
  · exact lawful
  · rename_i extension active
    have loaded := unloaded_of_active lawful active
    refine foldlRecOn (motive := fun first : Status × State => Lawful host unloaded first.2)
      _ _ ?_ ?_
    · exact lawful.aside rfl rfl rfl
    · exact fun first lawful service _ => lawful_callRequestStop lawful loaded

theorem lawful_requestExtensionStop (lawful : Lawful host unloaded s) :
    Lawful host unloaded (host.requestExtensionStop s).2 :=
  foldlRecOn (motive := fun first : Status × State => Lawful host unloaded first.2) _ _ lawful
    fun _ lawful index _ => lawful_stopExtension index lawful

/-! ## Cleanup -/

@[simp]
theorem callOnce_backendReleased :
    (host.callOnce callback done mark s ref).2.backendReleased = s.backendReleased := by
  unfold callOnce
  split
  · rfl
  · split <;> rfl

/-- A callback that marks no more than its success takes no release back. -/
theorem callOnce_released {other : Ref}
    (marks : ∀ flags : Flags, flags.released = true → (mark flags).released = true)
    (released : (s.flags other).released = true) :
    ((host.callOnce callback done mark s ref).2.flags other).released = true := by
  unfold callOnce
  split
  · exact released
  · split
    · change (update s.flags ref _ other).released = true
      by_cases same : other = ref
      · subst same
        rw [update_self]
        exact marks _ released
      · rwa [update_of_ne same]
    · exact released

/-- When it reports success it is done. -/
theorem callOnce_done (marks : ∀ flags : Flags, done (mark flags) = true)
    (ok : (host.callOnce callback done mark s ref).1 = .ok) :
    done ((host.callOnce callback done mark s ref).2.flags ref) = true := by
  unfold callOnce at ok ⊢
  split at ok
  · rename_i finished
    rwa [if_pos finished]
  · rename_i needed
    rw [if_neg needed]
    split at ok
    · rename_i succeeds
      rw [if_pos succeeds]
      change done (update s.flags ref _ ref) = true
      rw [update_self]
      exact marks _
    · rename_i fails
      exact absurd ok fails

/-- After a successful `quiesce` a service is quiet, or was released before. -/
theorem callQuiesce_quiet {t : State} (quiesce : host.callQuiesce s ref = (.ok, t))
    (up : (t.flags ref).released = false) : (t.flags ref).quiesced = true := by
  have finished := callOnce_done (fun _ => rfl) (congrArg Prod.fst quiesce)
  rw [← callQuiesce, quiesce] at finished
  simpa [up] using finished

theorem related_of_not_backendPending {service : ℕ}
    (present : host.extension? index = some extension)
    (free : backendPending s index service extension = false) :
    ∀ backend ∈ host.pending s index, host.related ⟨index, service⟩ backend = false := by
  intro backend pending
  simp only [Host.pending, present, Option.elim_some, mem_filter, Bool.not_eq_true'] at pending
  have free := any_eq_false.mp free backend pending.1
  simpa [related, present, pending.2] using free

theorem lawful_cleanupService (service : ℕ) (present : host.extension? index = some extension)
    (loaded : unloaded index = false) (lawful : Lawful host unloaded first.2) :
    Lawful host unloaded (host.cleanupService index extension first service).2 := by
  unfold cleanupService
  dsimp only
  split
  · exact lawful
  · rename_i stopped
    split
    · exact lawful
    · rename_i free
      have quiesced : Lawful host unloaded (host.callQuiesce first.2 ⟨index, service⟩).2 :=
        lawful_callQuiesce lawful loaded fun up => by simpa [up] using stopped
      split
      · rename_i s quiesce
        have same : (host.callQuiesce first.2 ⟨index, service⟩).2.backendReleased =
            first.2.backendReleased := callOnce_backendReleased
        rw [quiesce] at quiesced same
        refine lawful_callShutdown quiesced loaded (callQuiesce_quiet quiesce) ?_
        rw [pending, same, ← pending]
        exact related_of_not_backendPending present (Bool.eq_false_of_not_eq_true free)
      · rename_i status s failed quiesce
        rwa [quiesce] at quiesced

theorem lawful_cleanupExtension (index : ℕ) (lawful : Lawful host unloaded first.2) :
    Lawful host unloaded (host.cleanupExtension first index).2 := by
  unfold cleanupExtension
  split
  · exact lawful
  · rename_i extension active
    have loaded := unloaded_of_active lawful active
    have present : host.extension? index = some extension := by
      simpa [Host.active, lawful.unloadReady, loaded] using active
    have cleaned : Lawful host unloaded ((List.range extension.services).reverse.foldl
        (host.cleanupService index extension) first).2 :=
      foldlRecOn (motive := fun first : Status × State => Lawful host unloaded first.2) _ _
        lawful fun _ lawful service _ => lawful_cleanupService service present loaded lawful
    dsimp only
    split <;> exact cleaned.aside rfl rfl rfl

theorem lawful_cleanupExtensionServices (lawful : Lawful host unloaded s) :
    Lawful host unloaded (host.cleanupExtensionServices s).2 :=
  foldlRecOn (motive := fun first : Status × State => Lawful host unloaded first.2) _ _ lawful
    fun _ lawful index _ => lawful_cleanupExtension index lawful

/-! ## Start -/

theorem lawful_initializeEach (loaded : unloaded index = false) {services : List ℕ}
    (lawful : Lawful host unloaded s) :
    Lawful host unloaded (host.initializeEach index services s).2 := by
  induction services generalizing s with
  | nil => exact lawful
  | cons service rest ih =>
    have called : Lawful host unloaded (host.callInitialize s ⟨index, service⟩).2 :=
      lawful_callInitialize lawful loaded
    rw [initializeEach]
    split
    · rename_i s' initialized
      rw [initialized] at called
      exact ih called
    · rename_i status s' failed initialized
      rwa [initialized] at called

variable {indices : List ℕ}

theorem lawful_initializeExtensions (lawful : Lawful host unloaded s) :
    Lawful host unloaded (host.initializeExtensions indices s).2 := by
  induction indices generalizing s with
  | nil => exact lawful
  | cons index rest ih =>
    rw [initializeExtensions]
    split
    · exact ih lawful
    · rename_i extension active
      have each : Lawful host unloaded (host.initializeEach index (List.range extension.services)
          (s.withLifecycle index .registered)).2 :=
        lawful_initializeEach (unloaded_of_active lawful active) (lawful.aside rfl rfl rfl)
      split
      · rename_i s' initialized
        rw [initialized] at each
        exact ih each
      · -- a failure stops all extensions and cleans up behind them
        rename_i status s' failed initialized
        rw [initialized] at each
        exact lawful_cleanupExtensionServices
          (lawful_requestExtensionStop (each.aside rfl rfl rfl))

/-! ## Whole runs -/

theorem lawful_detach (lawful : Lawful host s.unloadReady s) (index : ℕ) :
    Lawful host (host.detach s index).unloadReady (host.detach s index) := by
  unfold detach
  split
  · exact lawful
  · rename_i extension present
    split
    · rename_i ready
      refine ⟨rfl, lawful.tracks, fun other unloaded extension' present' => ?_⟩
      by_cases same : other = index
      · subst same
        obtain rfl : extension = extension' := Option.some.inj (present.symm.trans present')
        exact ready.2.2.2
      · refine lawful.released other ?_ extension' present'
        change update s.unloadReady index true other = true at unloaded
        rwa [update_of_ne same] at unloaded
    · exact lawful

theorem lawful_step (lawful : Lawful host s.unloadReady s) (attempt : Attempt) :
    Lawful host (host.step s attempt).unloadReady (host.step s attempt) := by
  have again {t : State} (lawful : Lawful host s.unloadReady t) : Lawful host t.unloadReady t := by
    rwa [lawful.unloadReady]
  cases attempt with
  | initializeServices => exact again (lawful_initializeExtensions lawful)
  | requestStop => exact again (lawful_requestExtensionStop lawful)
  | cleanup => exact again (lawful_cleanupExtensionServices lawful)
  | running | backend index backend released | callbacks index quiescent =>
    exact again (lawful.aside rfl rfl rfl)
  | detach index => exact lawful_detach lawful index

theorem lawful_run (host : Host) (attempts : List Attempt) :
    Lawful host (host.run attempts).unloadReady (host.run attempts) :=
  foldlRecOn (motive := fun s : State => Lawful host s.unloadReady s) _ _ (Lawful.start host)
    fun _ lawful attempt _ => lawful_step lawful attempt

/-! ## Complete cleanup -/

theorem cleanupService_released {service : ℕ} (released : (first.2.flags ref).released = true) :
    ((host.cleanupService index extension first service).2.flags ref).released = true := by
  unfold cleanupService
  dsimp only
  split
  · exact released
  · split
    · exact released
    · have quiesced : ((host.callQuiesce first.2 ⟨index, service⟩).2.flags ref).released = true :=
        callOnce_released (fun _ => id) released
      split
      · rename_i s quiesce
        rw [quiesce] at quiesced
        exact callOnce_released (fun _ _ => rfl) quiesced
      · rename_i status s failed quiesce
        rwa [quiesce] at quiesced

theorem cleanupService_ok {service : ℕ}
    (ok : (host.cleanupService index extension first service).1 = .ok) : first.1 = .ok := by
  unfold cleanupService at ok
  dsimp only at ok
  split at ok
  · exact (firstError_eq_ok.mp ok).1
  · split at ok
    · exact (firstError_eq_ok.mp ok).1
    · split at ok
      all_goals exact (firstError_eq_ok.mp ok).1

/-- A loop that keeps its first error reports success only if it started with it. -/
theorem foldl_ok {step : Status × State → ℕ → Status × State}
    (keeps : ∀ first index, (step first index).1 = .ok → first.1 = .ok)
    (ok : (indices.foldl step first).1 = .ok) : first.1 = .ok := by
  induction indices generalizing first with
  | nil => exact ok
  | cons index rest ih => exact keeps first index (ih ok)

/-- Cleanup of one extension takes no release back, and it reports an error unless the services of
the extension are released. -/
theorem cleanupExtension_released (released : (first.2.flags ref).released = true) :
    ((host.cleanupExtension first index).2.flags ref).released = true := by
  unfold cleanupExtension
  split
  · exact released
  · rename_i extension active
    have cleaned : (((List.range extension.services).reverse.foldl
        (host.cleanupService index extension) first).2.flags ref).released = true :=
      foldlRecOn (motive := fun first : Status × State => (first.2.flags ref).released = true)
        _ _ released fun _ released service _ => cleanupService_released released
    dsimp only
    split <;> exact cleaned

theorem cleanupExtension_ok (ok : (host.cleanupExtension first index).1 = .ok) :
    first.1 = .ok ∧ ∀ extension, host.active first.2 index = some extension →
      servicesReleased (host.cleanupExtension first index).2 index extension = true := by
  cases active : host.active first.2 index with
  | none =>
    simp only [cleanupExtension, active] at ok
    exact ⟨ok, nofun⟩
  | some extension =>
    simp only [cleanupExtension, active] at ok ⊢
    split at ok
    · rename_i quiescent
      rw [if_pos quiescent]
      refine ⟨?_, ?_⟩
      · exact foldl_ok (fun _ _ => cleanupService_ok) ok
      · rintro _ ⟨⟩
        exact (Bool.and_eq_true_iff.mp quiescent).2
    · exact absurd (firstError_eq_ok.mp ok).2 (by decide)

theorem foldl_cleanupExtension_released (released : (first.2.flags ref).released = true) :
    ((indices.foldl host.cleanupExtension first).2.flags ref).released = true :=
  foldlRecOn (motive := fun first : Status × State => (first.2.flags ref).released = true)
    _ _ released fun _ released _ _ => cleanupExtension_released released

/-- When cleanup reports success, every extension that it did not pass over has released its
services: its own turn did, and later turns take nothing back. -/
theorem foldl_cleanupExtension_ok (lawful : Lawful host unloaded first.2)
    (ok : (indices.foldl host.cleanupExtension first).1 = .ok) :
    ∀ index ∈ indices, unloaded index = false → ∀ extension,
      host.extension? index = some extension →
        servicesReleased (indices.foldl host.cleanupExtension first).2 index extension = true := by
  induction indices generalizing first with
  | nil => exact forall_mem_nil _
  | cons head rest ih =>
    have turn := lawful_cleanupExtension head lawful
    rw [foldl_cons] at ok ⊢
    intro index member loaded extension present
    rcases mem_cons.mp member with rfl | member
    · have active : host.active first.2 index = some extension := by
        simpa [Host.active, lawful.unloadReady, loaded] using present
      have done := foldl_ok (fun _ _ ok => (cleanupExtension_ok ok).1) ok
      have released := servicesReleased_iff.mp ((cleanupExtension_ok done).2 extension active)
      exact servicesReleased_iff.mpr fun service small =>
        foldl_cleanupExtension_released (released service small)
    · exact ih turn ok index member loaded extension present

end Host

/-- In every history of attempts, with every result of the callbacks, each service sees its
callbacks in order: `quiesce` after a stop request has succeeded, `shutdown` after `quiesce` has
succeeded and while no backend related to the service is unreleased, and nothing after a successful
`shutdown` until it is initialized again.  Cleanup reports success only if every service
that was initialized has been shut down. -/
theorem service_calls_orderly (host : Host) (attempts : List Attempt) :
    (∀ ref, Orderly (host.related ref) ((host.run attempts).seen ref)) ∧
    ((host.cleanupExtensionServices (host.run attempts)).1 = .ok →
      ∀ index extension, host.extension? index = some extension →
        ∀ service < extension.services,
          Down ((host.cleanupExtensionServices (host.run attempts)).2.seen ⟨index, service⟩)) := by
  have lawful := Host.lawful_run host attempts
  refine ⟨fun ref => (lawful.tracks ref).orderly, fun ok index extension present => ?_⟩
  have cleaned := Host.lawful_cleanupExtensionServices lawful
  have released : Host.servicesReleased
      (host.cleanupExtensionServices (host.run attempts)).2 index extension = true := by
    cases unloaded : (host.run attempts).unloadReady index with
    | true => exact cleaned.released index unloaded extension present
    | false =>
      refine Host.foldl_cleanupExtension_ok lawful ok index ?_ unloaded extension present
      exact mem_reverse.mpr (List.mem_range.mpr (Host.extension?_lt present))
  intro service small
  exact (cleaned.tracks _).down (servicesReleased_iff.mp released service small)

/-- One extension with one service and one backend, where all callbacks succeed. -/
def oneService (related : Bool) : Host where
  extensions := [some ⟨1, 1, fun _ _ => related⟩]
  results _ := .ok

/-- The backend is initialized after the service and not released when cleanup is tried first. -/
def backendHeld : List Attempt :=
  [.initializeServices, .backend 0 0 false, .requestStop, .cleanup]

/-- The second cleanup, once the backend is released. -/
def retried : Status × State :=
  (oneService true).cleanupExtensionServices
    ((oneService true).run (backendHeld ++ [.backend 0 0 true]))

theorem service_calls_orderly_retry :
    retried.1 = .ok ∧
      retried.2.calls.map (·.callback) = [.initializeService, .requestStop, .quiesce, .shutdown] ∧
      Down (retried.2.seen ⟨0, 0⟩) := by
  refine ⟨by decide +kernel, by decide +kernel, ?_⟩
  exact (service_calls_orderly (oneService true) (backendHeld ++ [.backend 0 0 true])).2
    (by decide +kernel) 0 _ rfl 0 (by decide)

/-- A backend that is not declared as related to the service does not hold it back: the service is
shut down while the backend is unreleased. -/
theorem unrelated_backend_unreleased :
    ∃ call ∈ ((oneService false).run backendHeld).seen ⟨0, 0⟩,
      call.callback = .shutdown ∧ call.status = .ok ∧ call.pending = [0] :=
  ⟨⟨⟨0, 0⟩, .shutdown, .ok, [0]⟩, by decide +kernel, rfl, rfl, rfl⟩

/-- Whenever the host may unload an extension, every service of it that was initialized has been shut
down. -/
theorem unloaded_services_down (host : Host) (attempts : List Attempt) {index service : ℕ}
    {extension : Extension} (present : host.extension? index = some extension)
    (small : service < extension.services) (ready : (host.run attempts).unloadReady index = true) :
    Down ((host.run attempts).seen ⟨index, service⟩) := by
  have lawful := Host.lawful_run host attempts
  have released := servicesReleased_iff.mp (lawful.released index ready extension present)
  exact (lawful.tracks _).down (released service small)

theorem unloaded_services_down_retry :
    Down (((oneService true).run
      (backendHeld ++ [.backend 0 0 true, .cleanup, .detach 0])).seen ⟨0, 0⟩) :=
  unloaded_services_down _ _ rfl Nat.zero_lt_one (by decide +kernel)

end Services

end RtRuntime
