import Runewarp.Lib.Notify
import Runewarp.ManagedSession.Lifecycle

/-!
# State requests of a connection

The turns of `Lifecycle` with what they leave out: the clock may move between two readings
of one turn, and at every event that is awaited; the role's `changed` future is created and
dropped with every `select!`; and the document of a request is rendered when its future is
first polled, some time after `drive_report` has started it.

`requests` is the history of the requests of the connection, the newest first.  A request
starts when `drive_report` sets `last_started`.
-/

namespace Runewarp.ManagedSession

variable {V I : Type}

/-- A place inside a turn where the clock is read again or an event is awaited. -/
inductive Pause (V I : Type) where
  /-- At the top of the loop, between `drive_report` and `handle_timer`. -/
  | timer
  /-- And before `take_next`. -/
  | take
  /-- `on_event` is told of a snapshot. -/
  | accept (envelope : SnapshotEnvelope V)
  /-- `on_event` is told that a snapshot is applied. -/
  | schedule (snapshot : QueuedSnapshot I)
deriving DecidableEq

/-- A state request from its start on. -/
structure StateRequest where
  revision : Revision
  /-- The applied revision at the start. -/
  applied : Option Revision
  startedAt : Instant
  /-- How many notifications came before the start. -/
  notices : Nat
  /-- How many came before its document was rendered. -/
  rendered : Option Nat := none
  finished : Bool := false
deriving DecidableEq

structure Reporting (V I : Type) where
  now : Instant
  applied : AppliedRevision
  connection : ConnectionLifecycle V I
  pause : Option (Pause V I) := none
  /-- The connection has ended with an error. -/
  ended : Bool := false
  /-- What the role's `changed` waits for. -/
  changed : Notify
  /-- How many notifications there were. -/
  notices : Nat := 0
  requests : List StateRequest := []

/-- What follows `drive_report` and `handle_timer` at the top of the loop. -/
def ConnectionLifecycle.take (c : ConnectionLifecycle V I) (now : Instant)
    (applied : AppliedRevision) : ConnectionLifecycle V I :=
  match (if c.phase.isApplying then none else c.queue.takeNext) with
  | some (pending, queue) =>
    if applied.matchesRevision pending.revision then
      { c with queue := queue.finishApply }.scheduleReport now pending.revision
    else { c with queue, phase := .applying pending }.onEvent (.applying pending.revision)
  | none => { c with control := .select (c.deadlines.nextWait now) }

namespace Reporting

/-- A connection that has just been opened. -/
def connect (now startedAt : Instant) (applied : AppliedRevision) (roleState : Bool)
    (changed : Notify) : Reporting V I where
  now := now
  applied := applied
  connection := .connect startedAt roleState
  changed := changed

inductive Action (V : Type) where
  | tick (elapsed : Nat)
  /-- `notify_one`: a fact of the role may have changed. -/
  | notify
  /-- The future of the request is polled and renders the document. -/
  | render
  /-- The `changed` future is polled and waits. -/
  | waits
  | turn (a : ConnectionLifecycle.Action V)
  /-- A turn goes on. -/
  | proceed

/-- A request that starts now. -/
def startedRequest (s : Reporting V I) (applied : AppliedRevision) (revision : Revision) :
    StateRequest where
  revision := revision
  applied := applied.revision
  startedAt := s.now
  notices := s.notices

/-- The history after a turn that has left the connection as `c`. -/
def record (s : Reporting V I) (applied : AppliedRevision) (c : ConnectionLifecycle V I) :
    List StateRequest :=
  match c.report.inFlight with
  | none => s.requests
  | some revision =>
    if c.report.lastStarted = s.connection.report.lastStarted then s.requests
    else s.startedRequest applied revision :: s.requests

/-- The connection goes on, to a place inside the turn or to its end; or it ends. -/
def goOn (s : Reporting V I) (pause : Option (Pause V I)) :
    Except ManagedSessionError (AppliedRevision × ConnectionLifecycle V I) → Reporting V I
  | .ok (applied, c) =>
    { s with applied, connection := c, pause, requests := s.record applied c }
  | .error _ => { s with ended := true }

/-- A turn up to its first pause. -/
def turn (parseInput : V → Except InputError I) (s : Reporting V I)
    (a : ConnectionLifecycle.Action V) : Option (Reporting V I) :=
  match s.connection.control, a with
  | .top, .drive => some (s.goOn (some .timer) (.ok (s.applied, s.connection.driveReport s.now)))
  | .ingest (.snapshot envelope :: items), .ingest =>
    match s.connection.deadlines.tryNoteValidSnapshot s.now with
    | none => some (s.goOn none (.error .firstSnapshotTimeout))
    | some deadlines =>
      some (s.goOn (some (.accept envelope)) (.ok (s.applied,
        { s.connection with
          control := .ingest items
          deadlines
          receivedValidSnapshot := true }.onEvent (.snapshot envelope.revision))))
  | .select _, .applyReturns (.ok ()) =>
    match s.connection.phase with
    | .applying snapshot =>
      some (s.goOn (some (.schedule snapshot)) (.ok (s.applied.set snapshot.revision,
        s.connection.onEvent (.applied snapshot.revision))))
    | .idle => none
  | _, a => (s.connection.step parseInput s.now s.applied a).map (s.goOn none)

/-- A turn goes on from a pause. -/
def proceed (parseInput : V → Except InputError I) (s : Reporting V I) :
    Pause V I → Reporting V I
  | .timer =>
    match s.connection.handleTimer s.now with
    | .ok () => { s with pause := some .take }
    | .error e => s.goOn none (.error e)
  | .take => s.goOn none (.ok (s.applied, s.connection.take s.now s.applied))
  | .accept envelope =>
    s.goOn none ((s.connection.acceptEnvelope parseInput s.now s.applied envelope).map
      fun c => (s.applied, c))
  | .schedule snapshot =>
    s.goOn none (.ok (s.applied,
      { s.connection.scheduleReport s.now snapshot.revision with
        queue := s.connection.queue.finishApply, phase := .idle, control := .top }))

/-- The connection is at its `select!`. -/
def atSelect (s : Reporting V I) : Bool :=
  match s.pause, s.connection.control with
  | none, .select _ => true
  | _, _ => false

/-- The newest request changes. -/
def updateNewest (f : StateRequest → StateRequest) : List StateRequest → List StateRequest
  | [] => []
  | r :: rest => f r :: rest

/-- The document is rendered once. -/
def StateRequest.render (notices : Nat) (r : StateRequest) : StateRequest :=
  { r with rendered := r.rendered.or (some notices) }

def StateRequest.finish (r : StateRequest) : StateRequest := { r with finished := true }

/-- The newest request has sent its document. -/
def hasRendered (s : Reporting V I) : Bool :=
  s.requests.head?.any fun r => r.rendered.isSome

def step (parseInput : V → Except InputError I) (s : Reporting V I) :
    Action V → Option (Reporting V I)
  | .tick elapsed => some { s with now := s.now + elapsed }
  | .notify => some { s with changed := s.changed.notifyOne, notices := s.notices + 1 }
  | .render =>
    if s.ended = false ∧ s.atSelect = true ∧ s.connection.report.inFlight ≠ none then
      some { s with requests := updateNewest (StateRequest.render s.notices) s.requests }
    else none
  | .waits =>
    if s.ended = false ∧ s.atSelect = true ∧ s.connection.roleState = true ∧
        s.changed.poll.1 = false then
      some { s with changed := s.changed.poll.2 }
    else none
  | .turn a =>
    if s.ended = false ∧ s.pause = none then
      match a with
      | .roleStateChanged =>
        if s.changed.poll.1 then turn parseInput { s with changed := s.changed.poll.2 } a
        else none
      | .reportReturns _ =>
        if s.hasRendered then
          turn parseInput { s with
            changed := s.changed.dropWaiter
            requests := updateNewest StateRequest.finish s.requests } a
        else none
      -- Whatever else ends the `select!` drops the `changed` future.
      | a => turn parseInput { s with changed := s.changed.dropWaiter } a
    else none
  | .proceed =>
    if s.ended then none else s.pause.map (proceed parseInput s)

def system (parseInput : V → Except InputError I) : Lts (Reporting V I) (Action V) :=
  ⟨step parseInput⟩

end Reporting

end Runewarp.ManagedSession
