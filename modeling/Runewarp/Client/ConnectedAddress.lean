import Runewarp.Client.AddressWorker
import Runewarp.Tunnel.ClientTunnel

/-!
# The connections of a Connected address

While an address is Connected its worker is in `ConnectedAddress::run`.  It has a primary
connection, whose replacement hint it follows, at most one candidate toward the hinted
generation, and at most one connection that has joined.

The worker's select is biased: its branches are polled in their order, each poll is a
step, and the first branch that is ready is taken.  What the worker then does, which
never waits, is one more step.  The tasks of the connections, the controller and the
other workers of the Client instance move in between.  A connection is the number it has
in the Client instance, with its Visitor credit under the same number.
-/

namespace Runewarp.Client

open Tunnel

inductive ConnectionEndKind where
  | clean
  | unauthorized
  | transport
  | withdrawalProtocolFailure
  | unclassified
deriving DecidableEq

structure TunnelConnectionEnd where
  kind : ConnectionEndKind
  message : Option String
deriving DecidableEq

def TunnelConnectionEnd.withdrawalProtocolFailureMessage (e : TunnelConnectionEnd) :
    Option String :=
  if e.kind = .withdrawalProtocolFailure then e.message else none

/-- What a connection run returns. -/
abbrev ConnectionResult := Except TunnelConnectionEnd Unit

/-- `AddressWorkerControl`, with the shutdown object it shares. -/
structure Control where
  maintenance : Watch MaintenanceIntent
  /-- The sender of the maintenance channel was dropped. -/
  senderDropped : Bool := false
  shutdownRequested : Bool := false
  orderly : OrderlyShutdown
deriving DecidableEq

/-- The future of a connection run. -/
inductive RunPhase where
  /-- Not made. -/
  | unstarted
  /-- Made and not polled. -/
  | started
  | polled
  | ended
deriving DecidableEq

/-- The future has been made and is not complete. -/
def RunPhase.live : RunPhase → Bool
  | .started | .polled => true
  | .unstarted | .ended => false

structure Connection (γ : Type) where
  tunnel : ClientTunnel γ
  run : RunPhase := .unstarted
deriving DecidableEq

/-- `Active`: the connection whose run it is, and its receiver of the hint. -/
structure Active where
  connection : Nat
  seen : Nat := 0
  hintsLive : Bool := true
  interruptions : UInt64
deriving DecidableEq

inductive Candidate (γ : Type) where
  | idle
  | waiting (target : γ) (started : Bool)
  | warming (target : γ)
deriving DecidableEq

/-- What a candidate attempt comes to, as the environment has it. -/
inductive AttemptAnswer (γ : Type) where
  /-- The first snapshot has come and the session can be established. -/
  | established (initial : TunnelEventState γ)
  | retryable
  | fatalLocalMaterial (message : String)
deriving DecidableEq

/-- `TunnelAttemptOutcome` of a candidate. -/
inductive CandidateOutcome where
  | connected (connection : Nat)
  | retryable
  | fatalLocalMaterial (message : String)
deriving DecidableEq

/-- The branches of the select, in their order. -/
inductive SelectBranch where
  | primary
  | joined
  | shutdown
  | maintenance
  | hints
  | candidate
deriving DecidableEq

/-- The branch that was ready, with what it gave. -/
inductive SelectEvent where
  | primaryEnded (result : ConnectionResult)
  | joinedEnded (result : ConnectionResult)
  | shutdownStarted
  | maintenanceChanged
  | maintenanceClosed
  | hintsChanged
  | hintsClosed
  | delayElapsed
  | attempted (outcome : CandidateOutcome)
deriving DecidableEq

/-- The variables of `ConnectedAddress::run`. -/
structure ConnectedAddress (γ : Type) where
  primary : Active
  joined : Option Active := none
  protocolFailure : Option TunnelConnectionEnd := none
  candidate : Candidate γ := .idle
  /-- What `maintenance` saw last. -/
  maintenanceSeen : Nat
  maintenanceLive : Bool := true
  shutdownStarted : Bool
deriving DecidableEq

inductive Worker (γ : Type) where
  /-- To enter `ConnectedAddress::run` with a connection. -/
  | entering (connection : Nat)
  | polling (run : ConnectedAddress γ) (branch : SelectBranch)
  | handling (run : ConnectedAddress γ) (event : SelectEvent)
  | returned (result : ConnectionResult)
deriving DecidableEq

/-- A Connected stretch of an address worker in its Client instance. -/
structure Stretch (γ : Type) where
  control : Control
  credits : ClientCredits
  connections : List (Connection γ)
  worker : Worker γ
  /-- What the runs of this worker have returned so far. -/
  ends : List ConnectionResult := []

variable {γ : Type} [DecidableEq γ]

namespace Candidate

def target : Candidate γ → Option γ
  | .idle => none
  | .waiting target _ => some target
  | .warming target => some target

/-- `reconcile`, with whether candidates are allowed and what the primary hints. -/
def reconcile (candidate : Candidate γ) (allowed : Bool) (hint : Option γ) (ha : Bool) :
    Candidate γ :=
  match candidate.target, hint.filter fun _ => allowed with
  | none, none => candidate
  | some _, none => .idle
  | none, some hint => if ha then .idle else .waiting hint false
  | some current, some hint =>
    if current = hint then candidate
    else if ha then .idle
    else .waiting hint false

end Candidate

def Control.allowsCandidates (control : Control) (shutdownStarted : Bool) : Bool :=
  !shutdownStarted && !control.shutdownRequested && control.maintenance.value = .maintain

namespace Active

/-- `Active::start`. -/
def start (connection : Nat) (tunnel : ClientTunnel γ) : Active where
  connection := connection
  interruptions := tunnel.hint.value.interruptions

def stillHints (active : Active) (tunnel : ClientTunnel γ) (target : γ) : Bool :=
  tunnel.hint.value.generation = some target && !tunnel.hint.value.paused &&
    tunnel.hint.value.interruptions = active.interruptions

end Active

def keepProtocolFailure (failure : Option TunnelConnectionEnd) :
    ConnectionResult → Option TunnelConnectionEnd
  | .ok () => failure
  | .error e =>
    if failure.isNone ∧ e.withdrawalProtocolFailureMessage.isSome then some e else failure

namespace Connection

/-- The calls on the Visitor credit of a connection that its tasks and its run can make.
The session task acquires, offers and assigns only in its loop. -/
def calls (c : Connection γ) : VisitorCredits.Event → Bool
  | .poll | .offer | .assign => c.tunnel.session = .offering
  | .cancel => c.tunnel.session ≠ .gated
  | .stopReplenishing | .stopIdle => c.tunnel.creditRelease ≠ .held
  | .close => c.tunnel.session = .finished
  | .dropRefused | .dropIdle | .idleReleased | .stream _ _ => true

/-- The run is polled.  Its first poll releases the credit, and its end drops the handle. -/
def pollRun (c : Connection γ) (ended : Bool) : Option (Connection γ) :=
  if c.run.live then
    some (if ended then ⟨c.tunnel.releaseCredit.drop, .ended⟩ else
      ⟨c.tunnel.releaseCredit, .polled⟩)
  else none

def startRun (c : Connection γ) : Connection γ := { c with run := .started }

/-- The handle is dropped with the run not made. -/
def drop (c : Connection γ) : Connection γ := { c with tunnel := c.tunnel.drop }

end Connection

namespace Stretch

def start (control : Control) (initial : TunnelEventState γ) (budget : Nat) : Stretch γ where
  control := control
  credits := { budget := { permits := budget }, connections := [{}] }
  connections := [{ tunnel := .new false initial }]
  worker := .entering 0

inductive Action (γ : Type) where
  /-- `ConnectedAddress::run` up to its loop. -/
  | enter
  /-- The run of the branch is polled, with what it returns. -/
  | pollRun (result : Option ConnectionResult)
  /-- Another branch is polled, the candidate's without a result. -/
  | poll
  | delayElapsed
  | attempted (answer : AttemptAnswer γ)
  /-- The worker does what the branch it has taken asks for. -/
  | handle
  | follow (i : Nat) (event : FollowEvent γ)
  | session (i : Nat) (event : SessionEvent)
  /-- The connection is closed. -/
  | close (i : Nat)
  | credit (i : Nat) (event : VisitorCredits.Event)
  /-- Another worker of the Client instance has a connection. -/
  | connect (initial : TunnelEventState γ)
  | sendIntent (intent : MaintenanceIntent)
  | dropSender
  | beginShutdown (mode : ShutdownMode)
  | requestShutdown
deriving DecidableEq

variable (s : Stretch γ)

/-- A connection of the Client instance, with its Visitor credit. -/
def addConnection (tunnel : ClientTunnel γ) : Stretch γ :=
  { s with
    connections := s.connections ++ [{ tunnel := tunnel }]
    credits := { s.credits with connections := s.credits.connections ++ [{}] } }

/-- The loop starts over. -/
def loop (run : ConnectedAddress γ) : Stretch γ := { s with worker := .polling run .primary }

def handling (run : ConnectedAddress γ) (event : SelectEvent) : Stretch γ :=
  { s with worker := .handling run event }

/-- `reconcile` on the variables of the loop. -/
def reconciled (run : ConnectedAddress γ) (ha : Bool) : Option (Stretch γ) :=
  match s.connections[run.primary.connection]? with
  | none => none
  | some primary =>
    let allowed := s.control.allowsCandidates run.shutdownStarted
    let hint := primary.tunnel.hint.value.generation
    some (s.loop { run with candidate := run.candidate.reconcile allowed hint ha })

/-- `ConnectedAddress::run` up to its loop. -/
def enter (connection : Nat) : Option (Stretch γ) :=
  match s.connections[connection]? with
  | none => none
  | some c =>
    let run : ConnectedAddress γ :=
      { primary := .start connection c.tunnel
        maintenanceSeen := s.control.maintenance.version
        shutdownStarted := s.control.orderly.mode.isSome }
    reconciled { s with connections := s.connections.set connection c.startRun } run false

/-- The run of connection `i` is polled. -/
def pollRun (i : Nat) (result : Option ConnectionResult) : Option (Stretch γ) :=
  match s.connections[i]? with
  | none => none
  | some c =>
    (c.pollRun result.isSome).map fun c' =>
      { s with connections := s.connections.set i c', ends := s.ends ++ result.toList }

/-- The branches whose readiness is in the state; the others are pending, or not enabled. -/
def poll (run : ConnectedAddress γ) : SelectBranch → Option (Stretch γ)
  | .primary => none
  | .joined => if run.joined.isNone then some { s with worker := .polling run .shutdown } else none
  | .shutdown =>
    if !run.shutdownStarted && s.control.orderly.mode.isSome then
      some (s.handling run .shutdownStarted)
    else some { s with worker := .polling run .maintenance }
  | .maintenance =>
    if run.maintenanceLive then
      match s.control.maintenance.changed run.maintenanceSeen s.control.senderDropped with
      | .changed =>
        let run := { run with maintenanceSeen := s.control.maintenance.version }
        some (s.handling run .maintenanceChanged)
      | .closed => some (s.handling run .maintenanceClosed)
      | .pending => some { s with worker := .polling run .hints }
    else some { s with worker := .polling run .hints }
  | .hints =>
    if run.primary.hintsLive then
      match s.connections[run.primary.connection]? with
      | none => none
      | some c =>
        match c.tunnel.hint.changed run.primary.seen (c.tunnel.events = .finished) with
        | .changed => some (s.handling run .hintsChanged)
        | .closed => some (s.handling run .hintsClosed)
        | .pending => some { s with worker := .polling run .candidate }
    else some { s with worker := .polling run .candidate }
  | .candidate => some (s.loop run)

/-- The attempt toward `target` is ready. -/
def attempted (run : ConnectedAddress γ) (target : γ) : AttemptAnswer γ → Stretch γ
  | .retryable => s.handling run (.attempted .retryable)
  | .fatalLocalMaterial message => s.handling run (.attempted (.fatalLocalMaterial message))
  | .established initial =>
    match ClientTunnel.establish (some target) initial with
    | none => s.handling run (.attempted .retryable)
    | some tunnel =>
      (s.addConnection tunnel).handling run (.attempted (.connected s.connections.length))

/-- `settle`, with the connection that a candidate has. -/
def settleConnected (run : ConnectedAddress γ) (target : γ) (i : Nat) : Option (Stretch γ) :=
  match s.connections[i]?, s.connections[run.primary.connection]? with
  | some c, some primary =>
    let dropped := { s with connections := s.connections.set i c.drop }
    if !s.control.allowsCandidates run.shutdownStarted then
      some (dropped.loop { run with candidate := .idle })
    else if !run.primary.stillHints primary.tunnel target then
      some (dropped.loop { run with candidate := .waiting target true })
    else
      let started := { s with connections := s.connections.set i c.startRun }
      let joined := Active.start i c.tunnel
      some (started.loop { run with candidate := .idle, joined := some joined })
  | _, _ => none

/-- `settle`. -/
def settle (run : ConnectedAddress γ) (outcome : CandidateOutcome) : Option (Stretch γ) :=
  match run.candidate.target with
  | none => some (s.loop run)
  | some target =>
    match outcome with
    | .connected i => s.settleConnected run target i
    | .retryable | .fatalLocalMaterial _ =>
      some (s.loop { run with candidate := .waiting target true })

/-- The hint has changed. -/
def hintsChanged (run : ConnectedAddress γ) : Option (Stretch γ) :=
  match s.connections[run.primary.connection]? with
  | none => none
  | some c =>
    let hint := c.tunnel.hint.value
    let primary := { run.primary with
      seen := c.tunnel.hint.version, interruptions := hint.interruptions }
    let candidate :=
      if hint.interruptions ≠ run.primary.interruptions then .idle else run.candidate
    s.reconciled { run with primary := primary, candidate := candidate } run.joined.isSome

def handle (run : ConnectedAddress γ) : SelectEvent → Option (Stretch γ)
  | .primaryEnded result =>
    match run.joined with
    | none => some { s with worker := .returned (run.protocolFailure.elim result .error) }
    | some next =>
      let failure := keepProtocolFailure run.protocolFailure result
      s.reconciled { run with primary := next, joined := none, protocolFailure := failure }
        false
  | .joinedEnded result =>
    let failure := keepProtocolFailure run.protocolFailure result
    s.reconciled { run with joined := none, protocolFailure := failure } false
  | .shutdownStarted => some (s.loop { run with shutdownStarted := true, candidate := .idle })
  | .maintenanceClosed => some (s.loop { run with maintenanceLive := false })
  | .maintenanceChanged =>
    if s.control.maintenance.value = .retire then some (s.loop { run with candidate := .idle })
    else s.reconciled run run.joined.isSome
  | .hintsClosed => some (s.loop { run with primary := { run.primary with hintsLive := false } })
  | .hintsChanged => s.hintsChanged run
  | .delayElapsed =>
    match run.candidate.target with
    | none => some (s.loop run)
    | some target => some (s.loop { run with candidate := .warming target })
  | .attempted outcome => s.settle run outcome

/-- One step of the worker. -/
def workerStep (worker : Worker γ) (a : Action γ) : Option (Stretch γ) :=
  match worker, a with
  | .entering connection, .enter => s.enter connection
  | .polling run .primary, .pollRun result =>
    (s.pollRun run.primary.connection result).map fun t =>
      match result with
      | none => { t with worker := .polling run .joined }
      | some result => t.handling run (.primaryEnded result)
  | .polling run .joined, .pollRun result =>
    match run.joined with
    | none => none
    | some joined =>
      (s.pollRun joined.connection result).map fun t =>
        match result with
        | none => { t with worker := .polling run .shutdown }
        | some result => t.handling run (.joinedEnded result)
  | .polling run branch, .poll => s.poll run branch
  | .polling run .candidate, .delayElapsed =>
    match run.candidate with
    | .waiting _ _ => some (s.handling run .delayElapsed)
    | .idle | .warming _ => none
  | .polling run .candidate, .attempted answer =>
    match run.candidate with
    | .warming target => some (s.attempted run target answer)
    | .idle | .waiting _ _ => none
  | .handling run event, .handle => s.handle run event
  | _, _ => none

/-- Connection `i` moves. -/
def onTunnel (i : Nat) (f : ClientTunnel γ → Option (ClientTunnel γ)) : Option (Stretch γ) :=
  match s.connections[i]? with
  | none => none
  | some c =>
    (f c.tunnel).map fun tunnel =>
      { s with connections := s.connections.set i { c with tunnel := tunnel } }

def step : Action γ → Option (Stretch γ)
  | .follow i event => s.onTunnel i fun t => t.follow event
  | .session i event => s.onTunnel i fun t => t.sessionStep event
  | .close i => s.onTunnel i fun t => some { t with closed := true }
  | .credit i event =>
    match s.connections[i]? with
    | none => none
    | some c =>
      if c.calls event then
        (s.credits.step (.on i event)).map fun credits => { s with credits := credits }
      else none
  | .connect initial => some (s.addConnection (.new false initial))
  | .sendIntent intent =>
    some { s with control :=
      { s.control with maintenance := s.control.maintenance.modify fun _ => intent } }
  | .dropSender => some { s with control := { s.control with senderDropped := true } }
  | .beginShutdown mode =>
    some { s with control := { s.control with orderly := s.control.orderly.enter mode } }
  | .requestShutdown => some { s with control := { s.control with shutdownRequested := true } }
  | a => s.workerStep s.worker a

def system : Lts (Stretch γ) (Action γ) := ⟨step⟩

end Stretch

end Runewarp.Client
