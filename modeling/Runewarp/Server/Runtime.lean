import Mathlib.Algebra.Group.Nat.Defs
import Runewarp.Lib.Progress
import Runewarp.OrderlyShutdown

/-!
# The Server runtime and its coordinators

A Server process runs three nested selects over futures of one task.
`Server::run_with_shutdown` races the accept loop of `Server::serve` against
`follow`, which copies process shutdown and Managed drain into a shutdown object
local to the Server.  `coordinate_server_acme` races that against the certificate
manager, and `coordinate_managed_server` races the result against the Managed
session.  A Server without the certificate manager or without a session leaves out
the layer.

A step is one branch of one select, or one call by the environment: the caller of
the runtime begins or escalates process shutdown, the session's adapter begins a
drain, a failed commit raises the fatal signal.  Where a select is not biased every
ready branch can be taken.
-/

namespace Runewarp

/-- `ConnectionLogContext::allocate`: the next number of the process-wide `u64`
sequence, from the last one given out. -/
def allocateConnectionId (last : Nat) : Except IoError Nat :=
  if last + 1 < 2 ^ 64 then .ok (last + 1)
  else .error (.otherError "Server connection IDs exhausted")

/-- What `accept_public_connections` yields.  An error comes with what
`AcceptBackoff::on_error` answers for it: a delay, or none when it is not one to
retry. -/
inductive PublicAccept where
  | stream
  | error (error : IoError) (delay : Option Nat)
deriving DecidableEq

/-- Where `Server::serve` stands. -/
inductive Serve where
  | accepting
  /-- Out of the accept loop with the mode it read: readiness is closing and the
  handshakes are being joined. -/
  | leaving (mode : ShutdownMode) (terminalError : Option IoError)
  /-- In the graceful select: the connections shut down, the deadline, or Fast. -/
  | graceful (terminalError : Option IoError)
  /-- Closing the connections, joining the intakes and sleeping for the flush. -/
  | closing (terminalError : Option IoError)
  | done
deriving DecidableEq

/-- Where `follow` stands in `Server::run_with_shutdown`. -/
inductive Follow where
  | waiting
  | graceful
  | pending
deriving DecidableEq

/-- The certificate manager's future in `coordinate_server_acme`. -/
inductive Acme where
  | absent
  | running
  /-- It ended with, or was given, this error, and the Server is awaited. -/
  | stopped (error : IoError)
deriving DecidableEq

/-- Where `coordinate_managed_server` stands. -/
inductive Coordinator where
  /-- No session: the Server's result is the runtime's. -/
  | static
  | selecting
  /-- The Server returned `Ok` and no process shutdown was there. -/
  | drained
  /-- The session ended first; the Server is awaited, and its result is returned
  unless there is an error to return in its place. -/
  | awaitServer (original : Option IoError)
  /-- The session was told to stop and is awaited. -/
  | stopping (result : Except IoError Unit)
  | returned (result : Except IoError Unit)
deriving DecidableEq

/-- The session future. -/
inductive SessionFuture where
  | absent
  | running
  | finished
deriving DecidableEq

structure ServerRuntime where
  /-- The process shutdown, shared with the caller and the session. -/
  process : OrderlyShutdown
  drain : Bool
  fatal : Bool
  lastConnectionId : Nat
  /-- `local` of `run_with_shutdown`. -/
  localShutdown : OrderlyShutdown
  follow : Follow
  serve : Serve
  acme : Acme
  coordinator : Coordinator
  session : SessionFuture
  /-- `session_stop` has been sent. -/
  sessionStop : Bool
  /-- Not in the source: process shutdown was begun by the caller of the runtime. -/
  callerBegan : Bool
  /-- Not in the source: the accept loop was left while neither process shutdown nor
  a drain had been begun. -/
  leftUnrequested : Bool
deriving DecidableEq

namespace ServerRuntime

/-- A runtime before its first poll. -/
def start (gracefulShutdownDuration lastConnectionId : Nat) (withAcme managed : Bool) :
    ServerRuntime where
  process := .new gracefulShutdownDuration
  drain := false
  fatal := false
  lastConnectionId := lastConnectionId
  localShutdown := .new gracefulShutdownDuration
  follow := .waiting
  serve := .accepting
  acme := if withAcme then .running else .absent
  coordinator := if managed then .selecting else .static
  session := if managed then .running else .absent
  sessionStop := false
  callerBegan := false
  leftUnrequested := false

/-- Process shutdown or a Managed drain has been begun. -/
def Requested (s : ServerRuntime) : Prop := s.process.mode ≠ none ∨ s.drain = true

instance (s : ServerRuntime) : Decidable s.Requested :=
  inferInstanceAs (Decidable (_ ∨ _))

/-! ## `Server::serve` -/

/-- `break` out of the accept loop.  The mode is read right after it; the source
expects it to be there. -/
def breakLoop (s : ServerRuntime) (terminalError : Option IoError) : Option ServerRuntime :=
  s.localShutdown.mode.map fun mode =>
    { s with serve := .leaving mode terminalError, leftUnrequested := !decide s.Requested }

/-- `break` after `begin_fast`. -/
def breakFast (s : ServerRuntime) (terminalError : Option IoError) : Option ServerRuntime :=
  breakLoop { s with localShutdown := s.localShutdown.beginFast } terminalError

/-- `process_public_accept`, on the last connection ID. -/
def processPublicAccept (last : Nat) : PublicAccept → Except IoError Nat
  | .stream => allocateConnectionId last
  | .error _ (some _) => .ok last
  | .error error none => .error error

/-- `NextServerEvent`.  A Tunnel endpoint yields `none` once it is closed or its
driver has failed. -/
inductive NextServerEvent where
  | fatal
  | shutdown
  | visitor (accept : PublicAccept)
  | tunnel (incoming : Option Unit)
deriving DecidableEq

/-- `next_server_event` is biased: the fatal signal before shutdown, and both before
any accept. -/
def eventReady (s : ServerRuntime) : NextServerEvent → Bool
  | .fatal => s.fatal
  | .shutdown => !s.fatal && s.localShutdown.mode.isSome
  | .visitor _ => !s.fatal && s.localShutdown.mode.isNone
  | .tunnel _ => !s.fatal && s.localShutdown.mode.isNone

/-- The connection is admitted under its ID, or the loop breaks with the error. -/
def admitConnection (s : ServerRuntime) : Except IoError Nat → Option ServerRuntime
  | .ok last => some { s with lastConnectionId := last }
  | .error error => s.breakFast (some error)

/-- What an accept comes to: the last connection ID after it, or an error. -/
def admission (s : ServerRuntime) : NextServerEvent → Option (Except IoError Nat)
  | .visitor accept => some (processPublicAccept s.lastConnectionId accept)
  | .tunnel (some ()) => some (allocateConnectionId s.lastConnectionId)
  | .fatal | .shutdown | .tunnel none => none

/-- One iteration of the accept loop. -/
def onEvent (s : ServerRuntime) : NextServerEvent → Option ServerRuntime
  | .fatal =>
    s.breakFast (some (.otherError "unrecoverable server failure after authorization commit"))
  | .shutdown => s.breakLoop none
  | .visitor accept => s.admitConnection (processPublicAccept s.lastConnectionId accept)
  | .tunnel none => s.breakFast none
  | .tunnel (some ()) => s.admitConnection (allocateConnectionId s.lastConnectionId)

/-- After the listeners are dropped and the handshakes joined. -/
def afterHandshakes (s : ServerRuntime) (mode : ShutdownMode) (terminalError : Option IoError) :
    Serve :=
  if mode = .graceful ∧ 0 < s.localShutdown.gracefulShutdownDuration then .graceful terminalError
  else .closing terminalError

/-! ## The coordinators -/

/-- `coordinate_managed_server` when its Server future is ready.  The last three
places do not poll it. -/
def coordinateServer (s : ServerRuntime) (result : Except IoError Unit) : Option ServerRuntime :=
  match s.coordinator with
  | .static => some { s with coordinator := .returned result }
  | .selecting =>
    if result.isOk && s.process.mode.isNone then some { s with coordinator := .drained }
    else some { s with coordinator := .stopping result, sessionStop := true }
  | .awaitServer none => some { s with coordinator := .returned result }
  | .awaitServer (some original) => some { s with coordinator := .returned (.error original) }
  | .drained | .stopping _ | .returned _ => none

/-- `coordinate_server_acme` when its Server future is ready. -/
def acmeResult (acme : Acme) (result : Except IoError Unit) : Except IoError Unit :=
  match acme with
  | .stopped error => .error error
  | .absent | .running => result

/-- `terminal_error.map_or(Ok(()), Err)`. -/
def serveResult : Option IoError → Except IoError Unit
  | none => .ok ()
  | some error => .error error

/-- `serve` returns, and every layer around it that polls it. -/
def serveReturns (s : ServerRuntime) (terminalError : Option IoError) : Option ServerRuntime :=
  coordinateServer { s with serve := .done } (acmeResult s.acme (serveResult terminalError))

def sessionStopped : IoError := .otherError "managed session stopped unexpectedly"

/-- `coordinate_managed_server` when the session future is ready. -/
def coordinateSession (s : ServerRuntime) : Option ServerRuntime :=
  match s.coordinator with
  | .selecting =>
    if s.process.mode = some .fast then some { s with coordinator := .awaitServer none }
    else some { s with
      process := s.process.beginFast
      coordinator := .awaitServer (some sessionStopped) }
  | .drained => some { s with coordinator := .returned (.error sessionStopped) }
  | .stopping result => some { s with coordinator := .returned result }
  | .static | .awaitServer _ | .returned _ => none

/-- `result.err().unwrap_or_else(..)`. -/
def acmeError : Except IoError Unit → IoError
  | .error error => error
  | .ok () => .otherError "ACME certificate manager stopped unexpectedly"

/-- `follow` got the mode to enter. -/
def follows (s : ServerRuntime) (mode : ShutdownMode) : ServerRuntime :=
  { s with
    localShutdown := s.localShutdown.enter mode
    follow := match mode with
      | .graceful => .graceful
      | .fast => .pending }

/-! ## Steps -/

inductive Action where
  /-- The caller calls `begin_graceful` or `begin_fast`. -/
  | beginShutdown (mode : ShutdownMode)
  /-- The adapter of the session calls `ServerDrain::begin`. -/
  | beginDrain
  | raiseFatal
  /-- `follow`: process shutdown has started. -/
  | followShutdown
  /-- `follow`: a drain has started. -/
  | followDrain
  /-- `follow`: Fast after Graceful. -/
  | followFast
  | event (event : NextServerEvent)
  | handshakesJoined
  /-- The graceful select ends: connections shut down and quiescent, or deadline. -/
  | gracefulOver
  /-- The graceful select ends: the local shutdown is Fast. -/
  | gracefulFast
  | flushed
  | acmeEnds (result : Except IoError Unit)
  /-- After a drain: `wait_started`. -/
  | shutdownSeen
  | sessionEnds
deriving DecidableEq

def step (s : ServerRuntime) : Action → Option ServerRuntime
  | .beginShutdown mode => some { s with
      process := s.process.enter mode
      callerBegan := s.callerBegan || s.process.mode.isNone }
  | .beginDrain => if s.session = .running then some { s with drain := true } else none
  | .raiseFatal => some { s with fatal := true }
  | .followShutdown =>
    if s.serve ≠ .done ∧ s.follow = .waiting then s.process.mode.map s.follows else none
  | .followDrain =>
    if s.serve ≠ .done ∧ s.follow = .waiting ∧ s.drain = true then some (s.follows .graceful)
    else none
  | .followFast =>
    if s.serve ≠ .done ∧ s.follow = .graceful ∧ s.process.mode = some .fast then
      some { s with localShutdown := s.localShutdown.beginFast, follow := .pending }
    else none
  | .event event =>
    if s.serve = .accepting ∧ s.eventReady event = true then s.onEvent event else none
  | .handshakesJoined =>
    match s.serve with
    | .leaving mode terminalError =>
      some { s with serve := s.afterHandshakes mode terminalError }
    | _ => none
  | .gracefulOver =>
    match s.serve with
    | .graceful terminalError => some { s with serve := .closing terminalError }
    | _ => none
  | .gracefulFast =>
    match s.serve with
    | .graceful terminalError =>
      if s.localShutdown.mode = some .fast then some { s with serve := .closing terminalError }
      else none
    | _ => none
  | .flushed =>
    match s.serve with
    | .closing terminalError => s.serveReturns terminalError
    | _ => none
  | .acmeEnds result =>
    if s.acme = .running ∧ s.serve ≠ .done then
      some { s with acme := .stopped (acmeError result), process := s.process.beginFast }
    else none
  | .shutdownSeen =>
    if s.coordinator = .drained ∧ s.process.mode ≠ none then
      some { s with coordinator := .stopping (.ok ()), sessionStop := true }
    else none
  | .sessionEnds =>
    if s.session = .running then coordinateSession { s with session := .finished } else none

def system : Lts ServerRuntime Action := ⟨step⟩

/-! ## What a step can do -/

/-- The result of `serve` as the layer of the certificate manager hands it on. -/
def handedOn (s : ServerRuntime) (terminalError : Option IoError) : Except IoError Unit :=
  acmeResult s.acme (serveResult terminalError)

/-- An event that breaks the accept loop after `begin_fast`, with the terminal error
it leaves. -/
inductive Fails (s : ServerRuntime) : NextServerEvent → Option IoError → Prop where
  | fatal : Fails s .fatal (some error)
  | endpoint : Fails s (.tunnel none) none
  | admission : s.admission e = some (.error error) → Fails s e (some error)

inductive Move (s : ServerRuntime) : Action → ServerRuntime → Prop where
  | begins : Move s (.beginShutdown m) { s with
      process := s.process.enter m
      callerBegan := s.callerBegan || s.process.mode.isNone }
  | drains : s.session = .running → Move s .beginDrain { s with drain := true }
  | raises : Move s .raiseFatal { s with fatal := true }
  | follows : s.serve ≠ .done → s.follow = .waiting →
      a = .followShutdown ∧ s.process.mode = some m ∨
        a = .followDrain ∧ s.drain = true ∧ m = .graceful →
      Move s a (s.follows m)
  | escalates : s.serve ≠ .done → s.follow = .graceful → s.process.mode = some .fast →
      Move s .followFast
        { s with localShutdown := s.localShutdown.beginFast, follow := .pending }
  | admits : s.serve = .accepting → s.admission e = some (.ok n) →
      Move s (.event e) { s with lastConnectionId := n }
  | leaves : s.serve = .accepting → s.localShutdown.mode = some m →
      Move s (.event .shutdown)
        { s with serve := .leaving m none, leftUnrequested := !decide s.Requested }
  | fails : s.serve = .accepting → Fails s e err →
      Move s (.event e)
        { s with
          localShutdown := s.localShutdown.beginFast
          serve := .leaving .fast err
          leftUnrequested := !decide s.Requested }
  | joins : s.serve = .leaving m err → next = .graceful err ∨ next = .closing err →
      Move s .handshakesJoined { s with serve := next }
  | closes : s.serve = .graceful err → a = .gracefulOver ∨ a = .gracefulFast →
      Move s a { s with serve := .closing err }
  | drained : s.serve = .closing err → s.coordinator = .selecting →
      s.handedOn err = .ok () → s.process.mode = none →
      Move s .flushed { s with serve := .done, coordinator := .drained }
  | stops : s.serve = .closing err → s.coordinator = .selecting →
      (s.handedOn err = .ok () → s.process.mode ≠ none) →
      Move s .flushed
        { s with
          serve := .done
          coordinator := .stopping (s.handedOn err)
          sessionStop := true }
  | returns : s.serve = .closing err →
      s.coordinator = .static ∨ s.coordinator = .awaitServer none →
      Move s .flushed { s with serve := .done, coordinator := .returned (s.handedOn err) }
  | returnsOriginal : s.serve = .closing err → s.coordinator = .awaitServer (some original) →
      Move s .flushed { s with serve := .done, coordinator := .returned (.error original) }
  | acmeEnds : s.acme = .running → s.serve ≠ .done →
      Move s (.acmeEnds r)
        { s with acme := .stopped (acmeError r), process := s.process.beginFast }
  | wakes : s.coordinator = .drained → s.process.mode ≠ none →
      Move s .shutdownSeen { s with coordinator := .stopping (.ok ()), sessionStop := true }
  | endsFast : s.session = .running → s.coordinator = .selecting →
      s.process.mode = some .fast →
      Move s .sessionEnds { s with session := .finished, coordinator := .awaitServer none }
  | endsEarly : s.session = .running → s.coordinator = .selecting →
      s.process.mode ≠ some .fast →
      Move s .sessionEnds
        { s with
          session := .finished
          process := s.process.beginFast
          coordinator := .awaitServer (some sessionStopped) }
  | endsDrained : s.session = .running → s.coordinator = .drained →
      Move s .sessionEnds
        { s with session := .finished, coordinator := .returned (.error sessionStopped) }
  | endsStopped : s.session = .running → s.coordinator = .stopping r →
      Move s .sessionEnds { s with session := .finished, coordinator := .returned r }

variable {s t : ServerRuntime}

theorem breakFast_eq {err : Option IoError} (h : s.breakFast err = some t) : t = { s with
      localShutdown := s.localShutdown.beginFast
      serve := .leaving .fast err
      leftUnrequested := !decide s.Requested } := by
  simp only [breakFast, breakLoop, OrderlyShutdown.mode_beginFast, Option.map_some,
    Option.some.injEq] at h
  exact h.symm

theorem move_of_admitConnection {e : NextServerEvent} {r : Except IoError Nat}
    (hs : s.serve = .accepting) (he : s.admission e = some r) (h : s.admitConnection r = some t) :
    Move s (.event e) t := by
  cases r with
  | ok last =>
    cases h
    exact .admits hs he
  | error error =>
    cases breakFast_eq h
    exact .fails hs (.admission he)

theorem move_of_onEvent {e : NextServerEvent} (hs : s.serve = .accepting)
    (h : s.onEvent e = some t) :
    Move s (.event e) t := by
  match e with
  | .fatal =>
    cases breakFast_eq h
    exact .fails hs .fatal
  | .shutdown =>
    obtain ⟨m, hm, rfl⟩ := Option.map_eq_some_iff.mp h
    exact .leaves hs hm
  | .visitor _ => exact move_of_admitConnection hs rfl h
  | .tunnel none =>
    cases breakFast_eq h
    exact .fails hs .endpoint
  | .tunnel (some ()) => exact move_of_admitConnection hs rfl h

theorem move_of_serveReturns {err : Option IoError} (hs : s.serve = .closing err)
    (h : s.serveReturns err = some t) : Move s .flushed t := by
  simp only [serveReturns, coordinateServer] at h
  match hc : s.coordinator with
  | .static =>
    cases hc ▸ h
    exact .returns hs (.inl hc)
  | .selecting =>
    simp only [hc] at h
    split at h
    · next hd =>
      cases h
      simp only [Bool.and_eq_true, Option.isNone_iff_eq_none] at hd
      refine .drained hs hc ?_ hd.2
      match hr : s.handedOn err with
      | .ok () => rfl
      | .error e => simp [← handedOn.eq_1, hr, Except.isOk, Except.toBool] at hd
    · next hb =>
      cases h
      refine .stops hs hc fun hr hm => hb ?_
      simp [← handedOn.eq_1, hr, hm, Except.isOk, Except.toBool]
  | .awaitServer none =>
    cases hc ▸ h
    exact .returns hs (.inr hc)
  | .awaitServer (some original) =>
    cases hc ▸ h
    exact .returnsOriginal hs hc
  | .drained | .stopping _ | .returned _ => cases hc ▸ h

theorem move_of_coordinateSession (hs : s.session = .running)
    (h : coordinateSession { s with session := .finished } = some t) : Move s .sessionEnds t := by
  simp only [coordinateSession] at h
  match hc : s.coordinator with
  | .selecting =>
    simp only [hc] at h
    split at h
    · next hf =>
      cases h
      exact .endsFast hs hc hf
    · next hsl =>
      cases h
      exact .endsEarly hs hc hsl
  | .drained =>
    cases hc ▸ h
    exact .endsDrained hs hc
  | .stopping r =>
    cases hc ▸ h
    exact .endsStopped hs hc
  | .static | .awaitServer _ | .returned _ => cases hc ▸ h

theorem move_of_step {a : Action} (h : system.step s a = some t) : Move s a t := by
  simp only [system] at h
  cases a with
  | beginShutdown m =>
    cases h
    exact .begins
  | beginDrain =>
    obtain ⟨hs, rfl⟩ := Option.ite_some_none_eq_some.mp h
    exact .drains hs
  | raiseFatal =>
    cases h
    exact .raises
  | followShutdown =>
    simp only [step, Option.ite_none_right_eq_some, Option.map_eq_some_iff] at h
    obtain ⟨⟨hs, hf⟩, m, hm, rfl⟩ := h
    exact .follows hs hf (.inl ⟨rfl, hm⟩)
  | followDrain =>
    obtain ⟨⟨hs, hf, hd⟩, rfl⟩ := Option.ite_some_none_eq_some.mp h
    exact .follows hs hf (.inr ⟨rfl, hd, rfl⟩)
  | followFast =>
    obtain ⟨⟨hs, hf, hm⟩, rfl⟩ := Option.ite_some_none_eq_some.mp h
    exact .escalates hs hf hm
  | event e =>
    simp only [step, Option.ite_none_right_eq_some] at h
    exact move_of_onEvent h.1.1 h.2
  | handshakesJoined =>
    simp only [step] at h
    split at h
    · next hs =>
      cases h
      refine .joins hs ?_
      unfold afterHandshakes
      split
      · exact .inl rfl
      · exact .inr rfl
    · cases h
  | gracefulOver =>
    simp only [step] at h
    split at h
    · next hs =>
      cases h
      exact .closes hs (.inl rfl)
    · cases h
  | gracefulFast =>
    simp only [step] at h
    split at h
    · next hs =>
      obtain ⟨-, rfl⟩ := Option.ite_some_none_eq_some.mp h
      exact .closes hs (.inr rfl)
    · cases h
  | flushed =>
    simp only [step] at h
    split at h
    · next hs => exact move_of_serveReturns hs h
    · cases h
  | acmeEnds r =>
    obtain ⟨⟨ha, hs⟩, rfl⟩ := Option.ite_some_none_eq_some.mp h
    exact .acmeEnds ha hs
  | shutdownSeen =>
    obtain ⟨⟨hc, hm⟩, rfl⟩ := Option.ite_some_none_eq_some.mp h
    exact .wakes hc hm
  | sessionEnds =>
    simp only [step, Option.ite_none_right_eq_some] at h
    exact move_of_coordinateSession h.1 h.2

end ServerRuntime

end Runewarp
