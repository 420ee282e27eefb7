import Runewarp.Lib.Watch
import Runewarp.OrderlyShutdown

/-!
# Address workers

`run_address_worker` maintains the Tunnel connection of one Server address.  It dials,
runs the connection, and dials again after a delay, until shutdown, until its
maintenance intent is Retire while it has no connection, or until a failure that is
not one to retry.

The worker is a task of its own.  Every read it makes of the intent or of the shutdown
flag is a step, and so is the way out: first it decides to return, then its control
receivers are dropped, and then its task is finished.  What a dial or a connection
comes to is a choice of the environment, with one restriction from
`PreparedClient::run_with_shutdown`: a connection run returns `Ok`, or a withdrawal
protocol failure, only after shutdown has started.
-/

namespace Runewarp.Client

structure ServerAddress where
  hostname : ServerHostname
  port : UInt16
deriving DecidableEq

inductive MaintenanceIntent where
  | maintain
  | retire
deriving DecidableEq

inductive TunnelAttemptOutcome where
  | connected
  | retryable
  | fatalLocalMaterial (message : String)
deriving DecidableEq

/-- How the last connection of a Connected stretch ended. -/
inductive RunResult where
  | ok
  | ended
  | withdrawalProtocolFailure (message : String)
deriving DecidableEq

/-- A result that a connection run can have before shutdown has started. -/
def RunResult.beforeShutdown : RunResult → Bool
  | .ended => true
  | .ok | .withdrawalProtocolFailure _ => false

/-- What a worker goes on with when the intent it reads is Maintain. -/
inductive AfterRead where
  /-- Enter the select with the dial. -/
  | dial
  /-- Take the loop from its top. -/
  | again
  /-- Handle the outcome of the dial. -/
  | outcome (outcome : TunnelAttemptOutcome)
  /-- Handle the end of the connection: return if it was `Ok`, otherwise retry. -/
  | ended (ok : Bool)
deriving DecidableEq

/-- Where a worker task stands. -/
inductive WorkerPhase where
  /-- Spawned and not polled yet. -/
  | spawned
  /-- At the top of the loop, to read the shutdown flag. -/
  | top
  /-- To read the intent: Retire returns. -/
  | reading (next : AfterRead)
  /-- In the select with the dial. -/
  | dialing
  | connected
  /-- The connection is over; a withdrawal protocol failure returns, otherwise the
  shutdown flag is read. -/
  | ended (result : RunResult)
  /-- To enter `wait_for_retry_delay`. -/
  | retrying
  /-- In the select of `wait_for_retry_delay`, with what its receiver saw last. -/
  | sleeping (seen : Nat)
  /-- Decided to return; the receivers are still held. -/
  | exiting (result : Except String Unit)
  /-- The receivers are dropped. -/
  | dropped (result : Except String Unit)
  | finished (result : Except String Unit)
deriving DecidableEq

structure AddressWorker where
  address : ServerAddress
  /-- The generation its completion carries. -/
  generation : Nat
  /-- The maintenance channel, shared with the slot. -/
  maintenance : Watch MaintenanceIntent
  /-- What `maintenance` of `run_address_worker` saw last. -/
  seen : Nat
  phase : WorkerPhase
deriving DecidableEq

namespace WorkerPhase

/-- The result a worker has decided to return. -/
def result : WorkerPhase → Option (Except String Unit)
  | .exiting result | .dropped result | .finished result => some result
  | _ => none

/-- The control receivers are held. -/
def holdsReceivers : WorkerPhase → Bool
  | .dropped _ | .finished _ => false
  | _ => true

/-- How many steps a worker takes at most once the shutdown flag is set. -/
def rank : WorkerPhase → Nat
  | .reading .dial => 7
  | .dialing => 6
  | .reading (.outcome _) | .reading (.ended _) => 5
  | .spawned | .reading .again | .connected | .retrying => 4
  | .top | .ended _ | .sleeping _ => 3
  | .exiting _ => 2
  | .dropped _ => 1
  | .finished _ => 0

end WorkerPhase

namespace AddressWorker

def spawn (address : ServerAddress) (generation : Nat) : AddressWorker where
  address := address
  generation := generation
  maintenance := .new .maintain
  seen := 0
  phase := .spawned

def intent (w : AddressWorker) : MaintenanceIntent := w.maintenance.value

/-- `receiver_count() > 0` on the maintenance channel. -/
def isLive (w : AddressWorker) : Bool := w.phase.holdsReceivers

/-- The worker has decided to exit. -/
def decided (w : AddressWorker) : Bool := w.phase.result.isSome

/-- The worker returns, or has returned, an error. -/
def Failed (w : AddressWorker) : Prop := ∃ e, w.phase.result = some (.error e)

instance (w : AddressWorker) : Decidable w.Failed :=
  match h : w.phase.result with
  | some (.error e) => isTrue ⟨e, h⟩
  | some (.ok ()) => isFalse (by rintro ⟨e, he⟩; simp [h] at he)
  | none => isFalse (by rintro ⟨e, he⟩; simp [h] at he)

/-- A write to the maintenance channel by the controller. -/
def sendIntent (w : AddressWorker) (intent : MaintenanceIntent) : AddressWorker :=
  { w with maintenance := w.maintenance.send w.isLive intent }

def goTo (w : AddressWorker) (phase : WorkerPhase) : AddressWorker := { w with phase := phase }

def exit (w : AddressWorker) (result : Except String Unit) : AddressWorker :=
  w.goTo (.exiting result)

/-! ## Steps -/

/-- What the worker does when the intent it reads is Maintain. -/
def goOn (w : AddressWorker) : AfterRead → AddressWorker
  | .dial => w.goTo .dialing
  | .again => w.goTo .top
  | .outcome .connected => w.goTo .connected
  | .outcome .retryable => w.goTo .retrying
  | .outcome (.fatalLocalMaterial message) => w.exit (.error message)
  | .ended true => w.exit (.ok ())
  | .ended false => w.goTo .retrying

/-- A read of the shutdown flag: set, it returns; otherwise the intent is read. -/
def unlessShutdown (w : AddressWorker) (shutdown : Bool) (next : AfterRead) : AddressWorker :=
  if shutdown then w.exit (.ok ()) else w.goTo (.reading next)

/-- What the worker can see of the controller. -/
structure Surroundings where
  /-- The shutdown flag. -/
  shutdown : Bool
  /-- The shared `OrderlyShutdown` has started. -/
  orderlyStarted : Bool
  /-- The sender of the maintenance channel was dropped. -/
  senderDropped : Bool

inductive Event where
  /-- The first poll: `subscribe_maintenance`. -/
  | firstPoll
  | readShutdown
  | readIntent
  /-- The `wait_for_shutdown` branch of a select. -/
  | shutdownBranch
  /-- The `maintenance.changed()` branch of a select. -/
  | changedBranch
  /-- The dial is ready. -/
  | established (outcome : TunnelAttemptOutcome)
  | runEnds (result : RunResult)
  /-- `wait_for_retry_delay` subscribes to the maintenance channel. -/
  | subscribe
  /-- The retry delay is over. -/
  | slept
  | dropReceivers
  | finish
  /-- The task panics. -/
  | panic (message : String)
deriving DecidableEq

/-- One step of the worker, `none` when the event does not fit where it stands. -/
def step (env : Surroundings) (w : AddressWorker) (event : Event) : Option AddressWorker :=
  match w.phase, event with
  | .spawned, .firstPoll => some { w with seen := w.maintenance.version, phase := .top }
  | .top, .readShutdown => some (w.unlessShutdown env.shutdown .dial)
  | .ended (.withdrawalProtocolFailure message), .readShutdown => some (w.exit (.error message))
  | .ended .ok, .readShutdown => some (w.unlessShutdown env.shutdown (.ended true))
  | .ended .ended, .readShutdown => some (w.unlessShutdown env.shutdown (.ended false))
  | .reading next, .readIntent =>
    if w.intent = .retire then some (w.exit (.ok ())) else some (w.goOn next)
  | .dialing, .shutdownBranch => if env.shutdown then some (w.exit (.ok ())) else none
  | .dialing, .changedBranch =>
    match w.maintenance.changed w.seen env.senderDropped with
    | .changed => some { w with seen := w.maintenance.version, phase := .reading .again }
    | .closed => some (w.exit (.ok ()))
    | .pending => none
  | .dialing, .established outcome => some (w.goTo (.reading (.outcome outcome)))
  | .connected, .runEnds result =>
    if result.beforeShutdown || env.orderlyStarted then some (w.goTo (.ended result)) else none
  | .retrying, .subscribe => some (w.goTo (.sleeping w.maintenance.version))
  | .sleeping _, .shutdownBranch => if env.shutdown then some (w.exit (.ok ())) else none
  | .sleeping seen, .changedBranch =>
    match w.maintenance.changed seen env.senderDropped with
    | .changed => some (w.unlessShutdown env.shutdown .again)
    | .closed => some (w.exit (.ok ()))
    | .pending => none
  | .sleeping _, .slept => some (w.unlessShutdown env.shutdown .again)
  | .exiting result, .dropReceivers => some (w.goTo (.dropped result))
  | .dropped result, .finish => some (w.goTo (.finished result))
  | _, .panic message => if w.decided then none else some (w.exit (.error message))
  | _, _ => none

/-! ## What a step can do -/

/-- The moves of a worker that goes on. -/
inductive Advance (env : Surroundings) : WorkerPhase → WorkerPhase → Prop where
  | poll : Advance env .spawned .top
  | top : env.shutdown = false → Advance env .top (.reading .dial)
  | dial : Advance env (.reading .dial) .dialing
  | again : Advance env (.reading .again) .top
  | connect : Advance env (.reading (.outcome .connected)) .connected
  | retry : Advance env (.reading (.outcome .retryable)) .retrying
  | changed : Advance env .dialing (.reading .again)
  | established : Advance env .dialing (.reading (.outcome o))
  | runEnds : r.beforeShutdown = true ∨ env.orderlyStarted = true →
      Advance env .connected (.ended r)
  | endedOk : env.shutdown = false → Advance env (.ended .ok) (.reading (.ended true))
  | ended : env.shutdown = false → Advance env (.ended .ended) (.reading (.ended false))
  | reconnect : Advance env (.reading (.ended false)) .retrying
  | subscribe : Advance env .retrying (.sleeping n)
  | wake : env.shutdown = false → Advance env (.sleeping n) (.reading .again)

/-- Why a worker returns `Ok`. -/
def MayQuit (env : Surroundings) (w : AddressWorker) : Prop :=
  env.shutdown = true ∨ w.intent = .retire ∨ env.senderDropped = true ∨
    w.phase = .reading (.ended true)

inductive Step (env : Surroundings) (w : AddressWorker) : AddressWorker → Prop where
  | advances : Advance env w.phase p → Step env w { w with seen := n, phase := p }
  | quits : w.decided = false → w.MayQuit env → Step env w (w.exit (.ok ()))
  | fails : w.decided = false → Step env w (w.exit (.error message))
  | drops : w.phase = .exiting r → Step env w (w.goTo (.dropped r))
  | finishes : w.phase = .dropped r → Step env w (w.goTo (.finished r))

variable {w : AddressWorker} {p : WorkerPhase} {env : Surroundings}

theorem decided_of_phase (h : w.phase = p) : w.decided = p.result.isSome := by
  rw [decided, h]

theorem decided_of_not_isLive (h : w.isLive = false) : w.decided = true := by
  cases hp : w.phase <;>
    simp [isLive, decided, hp, WorkerPhase.holdsReceivers, WorkerPhase.result] at h ⊢

theorem step_goTo (h : Advance env w.phase p) : Step env w (w.goTo p) :=
  .advances (n := w.seen) h

theorem step_unlessShutdown {next : AfterRead} (hd : w.decided = false)
    (h : env.shutdown = false → Advance env w.phase (.reading next)) :
    Step env w (w.unlessShutdown env.shutdown next) := by
  cases hs : env.shutdown with
  | true => exact .quits hd (.inl hs)
  | false => exact step_goTo (h hs)

theorem step_goOn {next : AfterRead} (hp : w.phase = .reading next) : Step env w (w.goOn next) := by
  have hd : w.decided = false := decided_of_phase hp
  match next with
  | .dial => exact step_goTo (hp ▸ .dial)
  | .again => exact step_goTo (hp ▸ .again)
  | .outcome .connected => exact step_goTo (hp ▸ .connect)
  | .outcome .retryable => exact step_goTo (hp ▸ .retry)
  | .outcome (.fatalLocalMaterial _) => exact .fails hd
  | .ended true => exact .quits hd (.inr (.inr (.inr hp)))
  | .ended false => exact step_goTo (hp ▸ .reconnect)

theorem step_of_eq {w' : AddressWorker} {event : Event} (h : w.step env event = some w') :
    Step env w w' := by
  unfold step at h
  split at h
  next hp =>
    cases h
    exact .advances (hp ▸ .poll)
  next hp =>
    cases h
    exact step_unlessShutdown (decided_of_phase hp) fun hs => hp ▸ .top hs
  next hp =>
    cases h
    exact .fails (decided_of_phase hp)
  next hp =>
    cases h
    exact step_unlessShutdown (decided_of_phase hp) fun hs => hp ▸ .endedOk hs
  next hp =>
    cases h
    exact step_unlessShutdown (decided_of_phase hp) fun hs => hp ▸ .ended hs
  next hp =>
    split at h
    next hre =>
      cases h
      exact .quits (decided_of_phase hp) (.inr (.inl hre))
    next =>
      cases h
      exact step_goOn hp
  next hp =>
    obtain ⟨hs, rfl⟩ := by simpa using h
    exact .quits (decided_of_phase hp) (.inl hs)
  next hp =>
    split at h
    next =>
      cases h
      exact .advances (hp ▸ .changed)
    next hc =>
      cases h
      exact .quits (decided_of_phase hp)
        (.inr (.inr (.inl (Watch.senderDropped_of_closed hc))))
    next => cases h
  next hp =>
    cases h
    exact step_goTo (hp ▸ .established)
  next hp =>
    obtain ⟨hr, rfl⟩ := by simpa using h
    exact step_goTo (hp ▸ .runEnds hr)
  next hp =>
    cases h
    exact step_goTo (hp ▸ .subscribe)
  next hp =>
    obtain ⟨hs, rfl⟩ := by simpa using h
    exact .quits (decided_of_phase hp) (.inl hs)
  next hp =>
    split at h
    next =>
      cases h
      exact step_unlessShutdown (decided_of_phase hp) fun hs => hp ▸ .wake hs
    next hc =>
      cases h
      exact .quits (decided_of_phase hp)
        (.inr (.inr (.inl (Watch.senderDropped_of_closed hc))))
    next => cases h
  next hp =>
    cases h
    exact step_unlessShutdown (decided_of_phase hp) fun hs => hp ▸ .wake hs
  next hp =>
    cases h
    exact .drops hp
  next hp =>
    cases h
    exact .finishes hp
  next =>
    split at h
    next => cases h
    next hd =>
      cases h
      exact .fails (by simpa using hd)
  next => cases h

variable {env : Surroundings} {w w' : AddressWorker}

theorem Advance.result_eq_none {p' : WorkerPhase} (h : Advance env p p') :
    p.result = none ∧ p'.result = none := by
  cases h <;> exact ⟨rfl, rfl⟩

theorem Step.address_eq (h : Step env w w') : w'.address = w.address := by
  cases h <;> rfl

theorem Step.generation_eq (h : Step env w w') : w'.generation = w.generation := by
  cases h <;> rfl

theorem Step.intent_eq (h : Step env w w') : w'.intent = w.intent := by
  cases h <;> rfl

theorem Step.isLive_of_isLive (h : Step env w w') (hl : w'.isLive = true) : w.isLive = true := by
  cases h with
  | advances ha =>
    have hn := ha.result_eq_none.1
    cases hp : w.phase <;> simp [hp, WorkerPhase.result, isLive,
      WorkerPhase.holdsReceivers] at hn ⊢
  | quits hd | fails hd =>
    cases hp : w.phase <;>
      simp [hp, decided, WorkerPhase.result, isLive, WorkerPhase.holdsReceivers] at hd ⊢
  | _ => cases hl

theorem Step.result_eq (h : Step env w w') {r : Except String Unit}
    (hr : w.phase.result = some r) : w'.phase.result = some r := by
  cases h with
  | advances ha => simp [ha.result_eq_none.1] at hr
  | quits hd | fails hd => simp [decided, hr] at hd
  | drops hp | finishes hp => simpa [hp, WorkerPhase.result, goTo] using hr

theorem Step.not_finished (h : Step env w w') {r : Except String Unit} :
    w.phase ≠ .finished r := by
  intro hp
  cases h with
  | advances ha =>
    rw [hp] at ha
    cases ha
  | quits hd | fails hd => simp [decided, hp, WorkerPhase.result] at hd
  | drops hp' | finishes hp' => simp [hp] at hp'

theorem Step.failed_of_failed (h : Step env w w') (hf : w.Failed) : w'.Failed := by
  obtain ⟨e, he⟩ := hf
  exact ⟨e, h.result_eq he⟩

/-- A worker without receivers fails only if it had decided to. -/
theorem Step.failed_of_not_isLive (h : Step env w w') (hl : w.isLive = false) (hf : w'.Failed) :
    w.Failed := by
  obtain ⟨r, hr⟩ := Option.isSome_iff_exists.mp (decided_of_not_isLive hl)
  obtain ⟨e, he⟩ := hf
  cases (h.result_eq hr).symm.trans he
  exact ⟨e, hr⟩

/-- A worker that has decided had decided before, fails, or had a reason to quit. -/
theorem Step.decided_cases (h : Step env w w') (hd : w'.decided = true) :
    w.decided = true ∨ w'.Failed ∨ w.MayQuit env := by
  cases h with
  | advances ha => simp [decided, ha.result_eq_none.2] at hd
  | quits _ hq => exact .inr (.inr hq)
  | fails => exact .inr (.inl ⟨_, rfl⟩)
  | drops hp | finishes hp => exact .inl (decided_of_phase hp)

/-- A connection run of the worker has returned as it does once shutdown has started,
and the worker has not dealt with it. -/
def RunOver (w : AddressWorker) : Prop :=
  w.phase = .ended .ok ∨ (∃ m, w.phase = .ended (.withdrawalProtocolFailure m)) ∨
    w.phase = .reading (.ended true)

theorem Step.runOver (h : Step env w w') (ho : w'.RunOver) :
    w.RunOver ∨ env.orderlyStarted = true := by
  cases h with
  | @advances p n ha =>
    generalize hw : w.phase = q at ha
    cases ha with
    | runEnds hr =>
      rcases hr with hr | hr
      · rcases ho with ho | ⟨m, ho⟩ | ho <;> cases ho <;> cases hr
      · exact .inr hr
    | endedOk => exact .inl (.inl hw)
    | _ => rcases ho with ho | ⟨m, ho⟩ | ho <;> cases ho
  | _ => rcases ho with ho | ⟨m, ho⟩ | ho <;> cases ho

/-! ## The way out after shutdown -/

theorem rank_lt_of_advance {p' : WorkerPhase} (h : Advance env p p') (hs : env.shutdown = true) :
    p'.rank < p.rank := by
  cases h with
  | top hn | endedOk hn | ended hn | wake hn => simp [hs] at hn
  | _ => simp [WorkerPhase.rank]

theorem two_lt_rank (h : p.result = none) : 2 < p.rank := by
  cases p with
  | reading next => cases next <;> simp [WorkerPhase.rank]
  | exiting | dropped | finished => cases h
  | _ => simp [WorkerPhase.rank]

theorem Step.rank_lt (h : Step env w w') (hs : env.shutdown = true) :
    w'.phase.rank < w.phase.rank := by
  cases h with
  | advances ha => exact rank_lt_of_advance ha hs
  | quits hd | fails hd => exact two_lt_rank (by simpa [decided] using hd)
  | drops hp | finishes hp => simp [hp, goTo, WorkerPhase.rank]

/-- An event with which a worker goes on once the shutdown flag is set. -/
def nextEvent (w : AddressWorker) : Event :=
  match w.phase with
  | .spawned => .firstPoll
  | .top | .ended _ => .readShutdown
  | .reading _ => .readIntent
  | .dialing | .sleeping _ => .shutdownBranch
  | .connected => .runEnds .ended
  | .retrying => .subscribe
  | .exiting _ => .dropReceivers
  | .dropped _ | .finished _ => .finish

theorem nextEvent_enabled (hs : env.shutdown = true) (hf : ∀ r, w.phase ≠ .finished r) :
    (w.step env w.nextEvent).isSome = true := by
  unfold nextEvent
  match hp : w.phase with
  | .reading next =>
    simp only [step, hp]
    split <;> rfl
  | .ended .ok | .ended .ended | .ended (.withdrawalProtocolFailure _) => simp [step, hp]
  | .finished r => exact (hf r hp).elim
  | .spawned | .top | .retrying | .exiting _ | .dropped _ => simp [step, hp]
  | .connected => simp [step, hp, RunResult.beforeShutdown]
  | .dialing | .sleeping _ => simp [step, hp, hs]

end AddressWorker

end Runewarp.Client
