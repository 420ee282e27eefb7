import Runewarp.Lib.Lts
import Runewarp.Lib.Tally
import Runewarp.Lib.Watch
import Runewarp.Tunnel.StreamLease

/-!
# The Server side of a Tunnel connection

One `ServerTunnel` is a driver task (`serve_connection`), a task for each signaling
request (`handle_request`), the calls of `open_visitor_stream` and the streams those
have created.  They share a few watch values, and every read or write of one of these
is a step of its own, with one exception from the source: `watch::borrow` keeps a read
lock while the value it returned is held.  `open_visitor_stream` holds it from its
last check of the withdrawal flag to the end of the construction of the stream, and
no write to the flag comes in between.

What peers do is a choice of the environment: which requests come and how their
headers and bodies end, whether a stream opens, whether a write completes, when the
connection closes.  A request is told apart by the resource it is routed to.

Values that are only waited for by what they are (`wait_for`) are plain.  The two the
close timer waits on for a change (`changed`) are watch channels.
-/

namespace Runewarp.Tunnel

/-! ## Errors of an open -/

inductive OpenTunnelStreamError where
  | timedOut
  | closed
deriving DecidableEq

structure OpenFailure where
  outcome : OpenTunnelStreamError
  reason : String
  code : Option Nat
deriving DecidableEq

def OpenFailure.closed (reason : String) : OpenFailure := ⟨.closed, reason, none⟩

/-- `h3::error::StreamError`, as far as `OpenFailure::session` tells them apart. -/
inductive StreamError where
  | streamError (code : Nat)
  | remoteTerminate (code : Nat)
  | connectionError
  | headerTooBig
  | remoteClosing
  | undefined
  | other
deriving DecidableEq

def OpenFailure.session : StreamError → OpenFailure
  | .streamError code => ⟨.closed, "session-stream-error", some code⟩
  | .remoteTerminate code => ⟨.closed, "session-remote-terminate", some code⟩
  | .connectionError => .closed "session-connection-error"
  | .headerTooBig => .closed "session-header-too-big"
  | .remoteClosing => .closed "session-remote-closing"
  | .undefined => .closed "session-transport-error"
  | .other => .closed "session-other-error"

/-! ## Shared state -/

structure Shared where
  goaway : Bool := false
  requestsInFlight : Nat := 0
  visitorWork : Nat := 0
  withdrawn : Bool := false
  withdrawalWaiters : Watch Nat := .new 0
  confirmed : Watch Bool := .new false
  /-- The request whose handler published the session. -/
  session : Option Nat := none
  /-- `connection.close_reason().is_some()`. -/
  closed : Bool := false
deriving DecidableEq

namespace Shared

/-! `InFlightRequest::start` and its drop, for each of the three counters. -/

def startRequest (sh : Shared) : Shared := { sh with requestsInFlight := sh.requestsInFlight + 1 }

def dropRequest (sh : Shared) : Shared := { sh with requestsInFlight := sh.requestsInFlight - 1 }

def startVisitor (sh : Shared) : Shared := { sh with visitorWork := sh.visitorWork + 1 }

def dropVisitor (sh : Shared) : Shared := { sh with visitorWork := sh.visitorWork - 1 }

def startWaiter (sh : Shared) : Shared :=
  { sh with withdrawalWaiters := sh.withdrawalWaiters.send true (sh.withdrawalWaiters.value + 1) }

def dropWaiter (sh : Shared) : Shared :=
  { sh with withdrawalWaiters := sh.withdrawalWaiters.send true (sh.withdrawalWaiters.value - 1) }

/-- `confirmed.send_if_modified`. -/
def confirm (sh : Shared) : Shared :=
  if sh.confirmed.value then sh else { sh with confirmed := sh.confirmed.send true true }

end Shared

/-! ## `open_visitor_stream` -/

/-- Where a call of `open_visitor_stream` stands. -/
inductive OpenPhase where
  /-- `accepts_visitors`, its three reads. -/
  | readWithdrawn
  | readGoaway
  | readClosed
  /-- `VisitorWork` is made of two counts. -/
  | countRequest
  | countVisitor
  /-- In the select, before a session is there. -/
  | waitSession
  /-- In the select, with `open_bi`. -/
  | opening
  | checkGoaway
  /-- To take the read lock of the withdrawal flag. -/
  | borrow
  /-- The lock is held. -/
  | checkWithdrawn
  /-- The lock is held and the flag was not set. -/
  | committing
  /-- The stream is there and the lock still held. -/
  | committed (stream : Nat)
  /-- What `open_bi` opened is reset with `H3_REQUEST_REJECTED`, and then stopped with it. -/
  | reset (failure : OpenFailure)
  | stopSending (failure : OpenFailure)
  /-- `VisitorWork` is dropped, its two counts one after the other. -/
  | dropRequest (failure : Option OpenFailure)
  | dropVisitor (failure : Option OpenFailure)
  | returned (result : Except OpenFailure Nat)
  /-- The caller dropped the call. -/
  | cancelled
deriving DecidableEq

/-- Why the select of `open_visitor_stream` gives up the opening. -/
inductive Interruption where
  | timeout
  | connectionClosed
  | goaway
  | withdrawn
  /-- The caller drops the call. -/
  | cancel
deriving DecidableEq

inductive OpenEvent where
  | proceed
  | openBi (result : Except StreamError Unit)
  | interrupt (why : Interruption)
deriving DecidableEq

/-- What an interruption makes of the call; `none` when its branch is not ready. -/
def Interruption.failure (sh : Shared) : Interruption → Option (Option OpenFailure)
  | .timeout => some (some ⟨.timedOut, "stream-open-timeout", none⟩)
  | .connectionClosed => if sh.closed then some (some (.closed "connection-closed")) else none
  | .goaway => if sh.goaway then some (some (.closed "goaway")) else none
  | .withdrawn => if sh.withdrawn then some (some (.closed "withdrawn")) else none
  | .cancel => some none

namespace OpenPhase

/-- The read lock of the withdrawal flag is held. -/
def holdsLock : OpenPhase → Bool
  | .checkWithdrawn | .committing | .committed _ => true
  | _ => false

def refused : OpenPhase := .returned (.error (.closed "connection-not-accepting"))

/-- One step of a call; `stream` is the name of the stream it may create. -/
def step (sh : Shared) (stream : Nat) : OpenPhase → OpenEvent → Option (OpenPhase × Shared)
  | .readWithdrawn, .proceed => some (if sh.withdrawn then refused else .readGoaway, sh)
  | .readGoaway, .proceed => some (if sh.goaway then refused else .readClosed, sh)
  | .readClosed, .proceed => some (if sh.closed then refused else .countRequest, sh)
  | .countRequest, .proceed => some (.countVisitor, sh.startRequest)
  | .countVisitor, .proceed => some (.waitSession, sh.startVisitor)
  | .waitSession, .proceed => if sh.session.isSome then some (.opening, sh) else none
  | .opening, .openBi (.ok ()) => some (.checkGoaway, sh)
  | .opening, .openBi (.error e) => some (.dropRequest (some (.session e)), sh)
  | .waitSession, .interrupt why | .opening, .interrupt why =>
    (why.failure sh).map fun failure => (.dropRequest failure, sh)
  | .checkGoaway, .proceed =>
    some (if sh.goaway then .reset (.closed "goaway-after-open") else .borrow, sh)
  | .borrow, .proceed => some (.checkWithdrawn, sh)
  | .checkWithdrawn, .proceed =>
    some (if sh.withdrawn then .reset (.closed "withdrawn-after-open") else .committing, sh)
  | .committing, .proceed => some (.committed stream, sh)
  | .committed stream, .proceed => some (.returned (.ok stream), sh)
  | .reset failure, .proceed => some (.stopSending failure, sh)
  | .stopSending failure, .proceed => some (.dropRequest (some failure), sh)
  | .dropRequest failure, .proceed => some (.dropVisitor failure, sh.dropRequest)
  | .dropVisitor (some failure), .proceed => some (.returned (.error failure), sh.dropVisitor)
  | .dropVisitor none, .proceed => some (.cancelled, sh.dropVisitor)
  | _, _ => none

end OpenPhase

/-! ## Requests -/

/-- The resource a request is routed to; `other` is answered with a status or a reset. -/
inductive Route where
  | events
  | withdrawal
  | session
  | other
deriving DecidableEq

/-- Where a request stands. -/
inductive RequestPhase where
  /-- Its headers are resolved in the driver. -/
  | resolving
  /-- `handle_request` up to where the routes below go on. -/
  | handling (route : Route)
  /-- The CONNECT is accepted and the request no longer counted. -/
  | accepted
  /-- The session is published. -/
  | serving
  /-- `serve_withdrawal`: the waiter is registered. -/
  | committing
  /-- The withdrawal is committed; waits for the Visitor work to end. -/
  | quiescing
  /-- Sends `204`. -/
  | answering
  /-- `204` was sent, completely or not. -/
  | answered (complete : Bool)
  /-- The waiter is to be dropped. -/
  | leaving
  /-- The count of the request is to be dropped. -/
  | ending
  | finished
deriving DecidableEq

structure RequestTask where
  /-- Accepted before shutdown began. -/
  admitted : Bool
  phase : RequestPhase := .resolving
deriving DecidableEq

inductive RequestEvent where
  /-- The headers are resolved to a route, or not at all. -/
  | resolve (route : Option Route)
  /-- `acceptor.accept` returns. -/
  | accept (ok : Bool)
  /-- The body of a withdrawal has ended without content or trailers. -/
  | bodyless
  | proceed
  /-- The write of `204` ends. -/
  | sent (complete : Bool)
  /-- The handler comes to its end otherwise. -/
  | finish
  /-- The handler is dropped with the driver. -/
  | abort
deriving DecidableEq

namespace RequestPhase

/-- One step of a request; `self` is its own name. -/
def step (sh : Shared) (self : Nat) (admitted : Bool) :
    RequestPhase → RequestEvent → Option (RequestPhase × Shared)
  | .resolving, .resolve (some route) => some (if admitted then .handling route else .ending, sh)
  | .resolving, .resolve none => some (.ending, sh)
  | .handling .session, .accept ok =>
    some (if ok then .accepted else .finished, sh.dropRequest)
  | .accepted, .proceed => some (.serving, { sh with session := some self })
  | .serving, .finish => some (.finished, { sh with closed := true })
  | .handling .withdrawal, .bodyless => some (.committing, sh.startWaiter)
  | .committing, .proceed => some (.quiescing, { sh with withdrawn := true })
  | .quiescing, .proceed => if sh.visitorWork = 0 then some (.answering, sh) else none
  | .answering, .sent complete => some (.answered complete, sh)
  | .answered true, .proceed => some (.leaving, sh.confirm)
  | .answered false, .proceed => some (.leaving, sh)
  | .leaving, .proceed => some (.ending, sh.dropWaiter)
  | .ending, .proceed => some (.finished, sh.dropRequest)
  | .handling .events, .finish | .handling .withdrawal, .finish | .handling .other, .finish =>
    some (.ending, sh)
  | .resolving, .abort | .handling _, .abort => some (.ending, sh)
  | .quiescing, .abort | .answering, .abort => some (.leaving, sh)
  | .serving, .abort => some (.finished, sh)
  | _, _ => none

end RequestPhase

/-! ## The driver -/

/-- Where `close_after_quiescence` stands. -/
inductive CloseTimer where
  | awaitWithdrawal
  | awaitQuiescence
  | readConfirmed
  | readWaiters
  | awaitChange
  | sleeping
  | elapsed
deriving DecidableEq

inductive DriverPhase where
  | selecting
  /-- `shutting_down` is set. -/
  | sealing
  /-- GOAWAY is published and `h3_connection.shutdown(1)` runs. -/
  | sendGoaway
  /-- Nothing is in flight and `drain_sent` is set. -/
  | quiet
  /-- `session.drain()` runs. -/
  | draining
  /-- The loop is left. -/
  | over
deriving DecidableEq

structure Driver where
  phase : DriverPhase := .selecting
  shuttingDown : Bool := false
  drainSent : Bool := false
  close : CloseTimer := .awaitWithdrawal
  /-- What the receivers of the close timer saw last. -/
  confirmedSeen : Nat := 0
  waitersSeen : Nat := 0
deriving DecidableEq

/-- One step of `close_after_quiescence`. -/
def Driver.closeStep (d : Driver) (sh : Shared) : Option Driver :=
  match d.close with
  | .awaitWithdrawal => if sh.withdrawn then some { d with close := .awaitQuiescence } else none
  | .awaitQuiescence =>
    if sh.visitorWork = 0 then
      some { d with
        close := .readConfirmed
        confirmedSeen := sh.confirmed.version
        waitersSeen := sh.withdrawalWaiters.version }
    else none
  | .readConfirmed =>
    some { d with
      close := if sh.confirmed.value then .sleeping else .readWaiters
      confirmedSeen := sh.confirmed.version }
  | .readWaiters =>
    some { d with
      close := if sh.withdrawalWaiters.value = 0 then .sleeping else .awaitChange
      waitersSeen := sh.withdrawalWaiters.version }
  | .awaitChange =>
    if d.confirmedSeen ≠ sh.confirmed.version ∨ d.waitersSeen ≠ sh.withdrawalWaiters.version then
      some { d with close := .readConfirmed }
    else none
  | .sleeping => some { d with close := .elapsed }
  | .elapsed => none

inductive DriverEvent where
  /-- The shutdown signal is taken. -/
  | beginShutdown
  /-- `goaway.send_replace(true)`. -/
  | publishGoaway
  | goawaySent
  /-- Nothing is in flight. -/
  | quiesce
  /-- `session.drain()` is called, if there is a session. -/
  | drain
  | drained (ok : Bool)
  | closeTimer
  /-- The loop is left: the close timer has elapsed, the connection has closed or
  accepting has failed. -/
  | leave
  /-- The task is dropped with the `ServerTunnel`. -/
  | abort
deriving DecidableEq

namespace Driver

def step (d : Driver) (sh : Shared) (shutdownRequested : Bool) :
    DriverEvent → Option (Driver × Shared)
  | .beginShutdown =>
    if d.phase = .selecting ∧ shutdownRequested = true ∧ d.shuttingDown = false then
      some ({ d with phase := .sealing, shuttingDown := true }, sh)
    else none
  | .publishGoaway =>
    if d.phase = .sealing then some ({ d with phase := .sendGoaway }, { sh with goaway := true })
    else none
  | .goawaySent =>
    if d.phase = .sendGoaway then some ({ d with phase := .selecting }, sh) else none
  | .quiesce =>
    if d.phase = .selecting ∧ d.shuttingDown = true ∧ d.drainSent = false ∧
        sh.requestsInFlight = 0 then
      some ({ d with phase := .quiet, drainSent := true }, sh)
    else none
  | .drain =>
    if d.phase = .quiet then
      if sh.session.isSome then some ({ d with phase := .draining }, sh)
      else some ({ d with phase := .over }, { sh with closed := true })
    else none
  | .drained ok =>
    if d.phase = .draining then
      if ok then some ({ d with phase := .selecting }, sh)
      else some ({ d with phase := .over }, { sh with closed := true })
    else none
  | .closeTimer =>
    if d.phase = .selecting then (d.closeStep sh).map fun d' => (d', sh) else none
  | .leave =>
    if d.phase = .selecting then some ({ d with phase := .over }, { sh with closed := true })
    else none
  | .abort =>
    -- The await points of the driver.
    match d.phase with
    | .selecting | .sendGoaway | .draining =>
      some ({ d with phase := .over }, { sh with closed := true })
    | .sealing | .quiet | .over => none

end Driver

/-! ## The tunnel -/

structure ServerTunnel where
  shared : Shared := {}
  driver : Driver := {}
  shutdownRequested : Bool := false
  opens : List OpenPhase := []
  streams : List StreamLease := []
  requests : List RequestTask := []
deriving DecidableEq

namespace ServerTunnel

inductive Action where
  /-- `ServerTunnel::shutdown`. -/
  | shutdown
  /-- The connection closes. -/
  | close
  | driver (event : DriverEvent)
  /-- The driver accepts a request. -/
  | accept
  | request (i : Nat) (event : RequestEvent)
  /-- `open_visitor_stream` is called. -/
  | callOpen
  | openStep (i : Nat) (event : OpenEvent)
  /-- A half of a stream drops. -/
  | stream (i : Nat) (event : LeaseEvent)
deriving DecidableEq

/-- What giving back the `VisitorWork` of a stream does to the counters. -/
def released (sh : Shared) : LeaseEvent → Shared
  | .releaseFirst => sh.dropRequest
  | .releaseSecond => sh.dropVisitor
  | _ => sh

@[simp] theorem released_withdrawn (sh : Shared) (e : LeaseEvent) :
    (released sh e).withdrawn = sh.withdrawn := by
  cases e <;> rfl

@[simp] theorem released_goaway (sh : Shared) (e : LeaseEvent) :
    (released sh e).goaway = sh.goaway := by
  cases e <;> rfl

/-- Where a request can take a step: only the driver resolves, only the end of the
driver aborts, and a commit waits for the read lock. -/
def requestReady (s : ServerTunnel) (phase : RequestPhase) : RequestEvent → Bool
  | .resolve _ => s.driver.phase = .selecting
  | .abort => s.driver.phase = .over
  | .proceed => phase ≠ .committing || !s.opens.any (·.holdsLock)
  | _ => true

def step (s : ServerTunnel) : Action → Option ServerTunnel
  | .shutdown => some { s with shutdownRequested := true }
  | .close => some { s with shared := { s.shared with closed := true } }
  | .driver event =>
    (s.driver.step s.shared s.shutdownRequested event).map fun (d, sh) =>
      { s with driver := d, shared := sh }
  | .accept =>
    if s.driver.phase = .selecting then
      some { s with
        shared := s.shared.startRequest
        requests := s.requests ++ [{ admitted := !s.driver.shuttingDown }] }
    else none
  | .request i event =>
    match s.requests[i]? with
    | none => none
    | some r =>
      if s.requestReady r.phase event then
        (r.phase.step s.shared i r.admitted event).map fun (p, sh) =>
          { s with shared := sh, requests := s.requests.set i { r with phase := p } }
      else none
  | .callOpen => some { s with opens := s.opens ++ [.readWithdrawn] }
  | .openStep i event =>
    match s.opens[i]? with
    | none => none
    | some p =>
      (p.step s.shared s.streams.length event).map fun (p', sh) =>
        { s with
          shared := sh
          opens := s.opens.set i p'
          streams := if p = .committing then s.streams ++ [{}] else s.streams }
  | .stream i event =>
    match s.streams[i]? with
    | none => none
    | some l =>
      (l.step event).map fun l' =>
        { s with shared := released s.shared event, streams := s.streams.set i l' }

def system : Lts ServerTunnel Action := ⟨step⟩

end ServerTunnel

end Runewarp.Tunnel
