import Runewarp.Lib.Lts

/-!
# The certificate controller

The controller is shared.  One task runs it: `drive` acquires the owner lock, opens the
store, posts a proof of the challenge route, has the route observed and then drives ACME,
from one activation to the next, while a watchdog in the same task looks at the
certificate every 100 ms.  Any thread may call `request_ownership`,
`challenge_route_lost`, `install_snapshot` and `export_snapshot`, ask for the status, or
resolve a certificate for a TLS handshake.

A step of the model is a critical section of the state mutex, or one access to an atomic
flag, to the `Notify` or to the readiness watch.  The task is suspended only where
`drive` awaits something, and the watchdog runs only then.  Answers of the filesystem,
of the route observer and of `rustls-acme`, and both clocks, are choices of a run.
-/

namespace Runewarp.ServerCertificate

/-! ## Certificates -/

/-- `CertificateSnapshot`, with keys `κ`. -/
structure Snapshot (κ : Type) where
  key : κ
  validFrom : Int
  expiresAt : Int
  fingerprint : String
deriving DecidableEq

structure CertificateValidation (κ : Type) where
  hostname : String
  /-- Whether chain, key and name are in order at a time. -/
  verifies : Snapshot κ → Int → Bool
  minimumRemaining : Nat
  safetyMargin : Nat
  safetyMargin_pos : 0 < safetyMargin
  safetyMargin_lt : safetyMargin < minimumRemaining

/-- `CertificateSnapshot::validate`. -/
def CertificateValidation.validate {κ : Type} (policy : CertificateValidation κ)
    (snapshot : Snapshot κ) (now : Int) : Bool :=
  policy.verifies snapshot now && decide (policy.minimumRemaining ≤ snapshot.expiresAt - now)

/-- `ServerAcmeOptions`, as far as the controller depends on them. -/
structure AcmeOptions (κ : Type) where
  validation : CertificateValidation κ
  recoveryTimeout : Nat
  recoveryTimeout_pos : 0 < recoveryTimeout
  requestOwnershipOnStart : Bool

/-! ## The challenge route -/

/-- The self-signed certificate of `route_proof`. -/
structure Proof (κ : Type) where
  fingerprint : String
  key : κ
  /-- The activation that it was generated in. -/
  activation : Nat
deriving DecidableEq

/-- `ConsumedChallengeRoute`. -/
structure ConsumedRoute where
  fingerprint : String
  version : String
deriving DecidableEq

/-- `validate_version`. -/
def validVersion (version : String) : Bool :=
  !version.isEmpty && decide (version.utf8ByteSize ≤ 128) &&
    version.toList.all fun c => c.isAlphanum || ['-', '_', '.', ':'].contains c

/-- What `challenge` resolves with. -/
inductive Challenge (κ : Type) where
  | proof (proof : Proof κ)
  /-- The resolver of `rustls-acme`. -/
  | acme
deriving DecidableEq

/-- What an activation has when it awaits the observer. -/
structure Observation (κ : Type) where
  /-- The activation that opened the store. -/
  store : Nat
  proof : Proof κ
  /-- How many revocations had returned when the proof was posted. -/
  postedAt : Nat
  /-- How many had returned when the observation began. -/
  observeAt : Nat

/-- What ACME is driven with. -/
structure Evidence (κ : Type) extends Observation κ where
  route : ConsumedRoute

/-! ## The task -/

/-- The loop of `activate`, and that of `drive_active`. -/
inductive Phase where
  | acquisition
  | active
deriving DecidableEq

/-- Where `drive` is. -/
inductive Drive (κ : Type) where
  | top
  | waiting
  | acquiring
  | acquired
  | opening
  | importing (store : Nat)
  | exporting (store : Nat)
  | installing (store : Nat) (snapshot : Snapshot κ)
  | keeping (store : Nat)
  | proving (store : Nat)
  | posting (store : Nat) (proof : Proof κ)
  | posted (store : Nat) (proof : Proof κ) (postedAt : Nat)
  | observing (o : Observation κ)
  | checking (o : Observation κ) (route : ConsumedRoute)
  | starting (o : Observation κ) (route : ConsumedRoute)
  | looping (e : Evidence κ) (phase : Phase)
  | selecting (e : Evidence κ) (phase : Phase)
  | notified (e : Evidence κ) (phase : Phase)
  | exportingFirst (e : Evidence κ) (stored : Bool)
  | recovering (e : Evidence κ) (stored : Bool) (snapshot : Snapshot κ)
  | installingFirst (e : Evidence κ) (snapshot : Snapshot κ)
  | exportingRenewed (e : Evidence κ)
  | installingRenewed (e : Evidence κ) (snapshot : Snapshot κ)
  | renewed (e : Evidence κ)
  | failing (reason : String) (renewal : Bool)
  | renewalFailed
  | ended
  | sleeping

/-- The places where `drive` awaits something. -/
def Drive.awaits {κ : Type} : Drive κ → Bool
  | .waiting | .acquiring | .opening | .importing _ | .exporting _ | .observing _
  | .selecting _ _ | .exportingFirst _ _ | .exportingRenewed _ | .sleeping => true
  | .top | .acquired | .installing _ _ | .keeping _ | .proving _ | .posting _ _ | .posted _ _ _
  | .checking _ _ | .starting _ _ | .looping _ _ | .notified _ _ | .recovering _ _ _
  | .installingFirst _ _ | .installingRenewed _ _ | .renewed _ | .failing _ _ | .renewalFailed
  | .ended => false

/-- Where the watchdog is. -/
inductive Watchdog where
  | asleep
  | checked (serving expiring : Bool)
  | reading
  | maintaining (reason : String)

inductive Task (κ : Type) where
  | created
  | running (drive : Drive κ) (watchdog : Watchdog)
  /-- `drive` is dropped; the `Running` guard is next. -/
  | dropping
  | finished

/-- What `acme.next()` gives. -/
inductive Event where
  | deployedCachedCert
  | certCacheStore
  | other
  /-- An error, or the end of the stream. -/
  | failed

/-- What the environment answers to a step of `drive`. -/
inductive Answer (κ : Type) where
  | go
  /-- `try_acquire`: an error, or whether the lock was free. -/
  | acquired (result : Option Bool)
  /-- `open_with_io`: a panic, or whether it succeeded. -/
  | opened (result : Option Bool)
  | imported (ok : Bool)
  | exported (snapshot : Option (Snapshot κ))
  | proved (certificate : Option (String × κ))
  | observed (route : Option ConsumedRoute)
  | polled (event : Option Event)

/-! ## The shared state -/

/-- `State`. -/
structure State (κ : Type) where
  snapshot : Option (Snapshot κ)
  challenge : Option (Challenge κ) := none
  owner : Bool := false
  driving : Bool := false
  maintenance : Bool := false
  routeVersion : Option String := none
  failure : Option String
  /-- The activation that opened the store. -/
  store : Option Nat := none
  recoveryStarted : Option Nat
  failedRenewalFingerprint : Option String := none

/-- A call that is under way, by what it does next. -/
inductive Call where
  /-- `request_ownership`. -/
  | requesting
  | storing
  | notifying
  /-- `challenge_route_lost`. -/
  | losing
  | revoking
  | returning
deriving DecidableEq

/-- Who has the owner lock of the directory. -/
inductive Holder where
  | nobody
  | thisProcess
  | otherProcess
deriving DecidableEq

/-- `Controller`, its task, and the calls that are under way. -/
structure Controller (κ : Type) where
  state : State κ
  requested : Bool
  routeLost : Bool := false
  running : Bool := false
  /-- The permit of the `Notify`. -/
  permit : Bool := false
  ready : Bool
  task : Task κ := .created
  /-- The owner that `drive` keeps. -/
  hasOwner : Bool := false
  /-- How often `activate` was called. -/
  activation : Nat := 0
  calls : List Call := []
  /-- How many calls of `challenge_route_lost` have returned. -/
  revocations : Nat := 0
  /-- How many had, when the last observation that succeeded began. -/
  observedAt : Option Nat := none
  holder : Holder := .nobody
  /-- `tokio::time::Instant::now`. -/
  instant : Nat := 0
  /-- The certificate clock. -/
  now : Int := 0

section

variable {κ : Type}

/-- `usable`. -/
def usable (state : State κ) (policy : CertificateValidation κ) (now : Int) : Bool :=
  !state.maintenance && state.snapshot.any fun s =>
    decide (s.validFrom ≤ now) && decide ((policy.safetyMargin : Int) < s.expiresAt - now)

/-- `ServerCertificateStatus`. -/
structure Status where
  serving : Bool
  ownsAcme : Bool
  drivingAcme : Bool
  maintenance : Bool
  fingerprint : Option String
  expiresAt : Option Int
  routeVersion : Option String
  failure : Option String

/-- `status`. -/
def status (state : State κ) (policy : CertificateValidation κ) (now : Int) : Status where
  serving := usable state policy now
  ownsAcme := state.owner
  drivingAcme := state.driving
  maintenance := state.maintenance
  fingerprint := state.snapshot.map Snapshot.fingerprint
  expiresAt := state.snapshot.map Snapshot.expiresAt
  routeVersion := state.routeVersion
  failure := state.failure

/-- What a TLS handshake says. -/
structure Hello where
  serverName : Option String
  alpn : Option (List String)

def acmeTlsAlpn : String := "acme-tls/1"

inductive Resolved (κ : Type) where
  | nothing
  | key (key : κ)
  /-- What the resolver of `rustls-acme` answers. -/
  | delegated
deriving DecidableEq

/-- `resolve` of the challenge resolver; `isChallenge` is `is_tls_alpn_challenge`. -/
def resolveChallenge (isChallenge : Hello → Bool) (policy : CertificateValidation κ)
    (state : State κ) (hello : Hello) : Resolved κ :=
  if hello.serverName ≠ some policy.hostname then .nothing
  else if !isChallenge hello || !state.owner || state.maintenance then .nothing
  else
    match state.challenge with
    | none => .nothing
    | some (.proof proof) => .key proof.key
    | some .acme => .delegated

/-- `resolve` of the ordinary resolver. -/
def resolveServing (policy : CertificateValidation κ) (state : State κ) (now : Int)
    (hello : Hello) : Resolved κ :=
  if hello.serverName ≠ some policy.hostname then .nothing
  else if hello.alpn.any (·.contains acmeTlsAlpn) || !usable state policy now then .nothing
  else
    match state.snapshot with
    | none => .nothing
    | some snapshot => .key snapshot.key

namespace Controller

variable (options : AcmeOptions κ)

/-- `new`, with what `read_snapshot` gave. -/
def start (read : Option (Option (Snapshot κ))) (instant : Nat) (now : Int) : Controller κ where
  state :=
    { snapshot := read.join
      failure := if read.isSome then none else some "committed serving snapshot unavailable"
      recoveryStarted := if options.requestOwnershipOnStart then some instant else none }
  requested := options.requestOwnershipOnStart
  ready := read.join.isSome
  instant := instant
  now := now

/-- `install_snapshot`; `none` is an error. -/
def install (c : Controller κ) (snapshot : Snapshot κ) : Option (Controller κ) :=
  if options.validation.validate snapshot c.now && !c.state.maintenance then
    some { c with state := { c.state with snapshot := some snapshot }, ready := true }
  else none

/-- `install_snapshot` in `drive`, with where it leads. -/
def installThen (c : Controller κ) (snapshot : Snapshot κ) (done stop : Drive κ) :
    Option (Drive κ × Controller κ) :=
  match c.install options snapshot with
  | some c' => some (done, c')
  | none => some (stop, c)

/-- `failure`. -/
def fail (c : Controller κ) (reason : String) : Controller κ :=
  { c with state := { c.state with failure := some reason } }

/-- `get_or_insert_with(Instant::now)`. -/
def recoverySince (c : Controller κ) : Option Nat := c.state.recoveryStarted.or (some c.instant)

/-- The critical section in which ACME begins to be driven. -/
def startDriving (c : Controller κ) (route : ConsumedRoute) : Controller κ :=
  { c with state :=
    { c.state with
      challenge := some .acme
      driving := true
      routeVersion := some route.version
      failure := none } }

/-- A certificate was renewed, or the one that is there is not the one whose renewal failed. -/
def endRecovery (c : Controller κ) : Controller κ :=
  { c with state := { c.state with recoveryStarted := none, failedRenewalFingerprint := none } }

/-- What `drive` does after `activate`. -/
def deactivate (c : Controller κ) : Controller κ :=
  { c with state :=
    { c.state with
      challenge := none
      driving := false
      store := none
      routeVersion := none
      failure := c.state.failure.or (some "certificate activation failed")
      recoveryStarted := c.recoverySince } }

/-- Where an event of `rustls-acme` leads. -/
def afterEvent (e : Evidence κ) : Phase → Event → Drive κ
  | .acquisition, .deployedCachedCert => .exportingFirst e false
  | .acquisition, .certCacheStore => .exportingFirst e true
  | .acquisition, .other => .looping e .acquisition
  | .acquisition, .failed => .failing "ACME acquisition or persistence failed" false
  | .active, .certCacheStore => .exportingRenewed e
  | .active, .deployedCachedCert | .active, .other => .looping e .active
  | .active, .failed => .failing "ACME renewal or persistence failed" true

/-- A step of `drive`, with where it is next. -/
def drive (c : Controller κ) : Drive κ → Answer κ → Option (Drive κ × Controller κ)
  | .top, .go =>
    if c.requested then
      some (if c.hasOwner then .opening else .acquiring,
        { c with activation := c.activation + 1 })
    else some (.waiting, c)
  | .waiting, .go => if c.permit then some (.top, { c with permit := false }) else none
  | .acquiring, .acquired none => some (.ended, c)
  | .acquiring, .acquired (some false) =>
    if c.holder = .otherProcess then some (.failing "certificate owner is still running" false, c)
    else none
  | .acquiring, .acquired (some true) =>
    if c.holder = .nobody then
      some (.acquired, { c with holder := .thisProcess, hasOwner := true })
    else none
  | .acquired, .go => some (.opening, { c with state := { c.state with owner := true } })
  | .opening, .opened none => some (.ended, c)
  | .opening, .opened (some false) => some (.failing "certificate storage unavailable" false, c)
  | .opening, .opened (some true) => some (.importing c.activation, c)
  | .importing store, .imported ok => some (if ok then .exporting store else .ended, c)
  | .exporting store, .exported none => some (.keeping store, c)
  | .exporting store, .exported (some snapshot) => some (.installing store snapshot, c)
  | .installing store snapshot, .go => c.installThen options snapshot (.keeping store) .ended
  | .keeping store, .go =>
    some (.proving store, { c with state := { c.state with store := some store } })
  | .proving _, .proved none => some (.ended, c)
  | .proving store, .proved (some (fingerprint, key)) =>
    some (.posting store ⟨fingerprint, key, c.activation⟩, { c with routeLost := false })
  | .posting store proof, .go =>
    some (.posted store proof c.revocations,
      { c with state := { c.state with challenge := some (.proof proof) } })
  | .posted store proof postedAt, .go =>
    some (.observing ⟨store, proof, postedAt, c.revocations⟩, c)
  | .observing _, .observed none => some (.failing "challenge route not consumed" false, c)
  | .observing o, .observed (some route) =>
    some (.checking o route, { c with observedAt := some o.observeAt })
  | .checking o route, .go =>
    if validVersion route.version && decide (route.fingerprint = o.proof.fingerprint) &&
        !c.routeLost then some (.starting o route, c)
    else some (.ended, c)
  | .starting o route, .go => some (.looping ⟨o, route⟩ .acquisition, c.startDriving route)
  | .looping e phase, .go => some (if c.routeLost then .ended else .selecting e phase, c)
  -- The select is biased: `acme.next()` is polled when there is no permit.
  | .selecting e phase, .go =>
    if c.permit then some (.notified e phase, { c with permit := false }) else none
  | .selecting e phase, .polled event =>
    if c.permit then none
    else
      match event with
      | none => some (.selecting e phase, c)
      | some event => some (afterEvent e phase event, c)
  | .notified e phase, .go => some (if c.routeLost then .ended else .looping e phase, c)
  | .exportingFirst _ _, .exported none => some (.ended, c)
  | .exportingFirst e stored, .exported (some snapshot) => some (.recovering e stored snapshot, c)
  | .recovering e stored snapshot, .go =>
    some (.installingFirst e snapshot,
      if stored || decide (c.state.failedRenewalFingerprint ≠ some snapshot.fingerprint) then
        c.endRecovery
      else c)
  | .installingFirst e snapshot, .go => c.installThen options snapshot (.looping e .active) .ended
  | .exportingRenewed _, .exported none => some (.renewalFailed, c)
  | .exportingRenewed e, .exported (some snapshot) => some (.installingRenewed e snapshot, c)
  | .installingRenewed e snapshot, .go =>
    c.installThen options snapshot (.renewed e) .renewalFailed
  | .renewed e, .go => some (.looping e .active, c.endRecovery)
  | .failing reason renewal, .go => some (if renewal then .renewalFailed else .ended, c.fail reason)
  | .renewalFailed, .go =>
    some (.ended, { c with state :=
      { c.state with failedRenewalFingerprint := c.state.snapshot.map Snapshot.fingerprint } })
  | .ended, .go => some (.sleeping, c.deactivate)
  | .sleeping, .go => some (.top, c)
  | _, _ => none

/-- `maintenance`. -/
def maintain (c : Controller κ) (reason : String) : Controller κ :=
  { c with
    state :=
      { c.state with
        maintenance := true
        challenge := none
        driving := false
        failure := some reason }
    ready := false }

/-- A step of the watchdog, while `drive` is suspended at `place`. -/
def watch (c : Controller κ) (place : Drive κ) : Watchdog → Option (Controller κ)
  | .asleep =>
    let status := status c.state options.validation c.now
    let next := .checked status.serving status.expiresAt.isSome
    if place.awaits then some { c with task := .running place next } else none
  | .checked serving expiring =>
    let next :=
      if expiring && !serving then .maintaining "certificate safety deadline reached"
      else .reading
    some { c with ready := serving, task := .running place next }
  | .reading =>
    let overdue := c.state.recoveryStarted.any fun started =>
      decide (options.recoveryTimeout ≤ c.instant - started)
    let next :=
      if overdue then .maintaining "certificate takeover recovery deadline reached"
      else .asleep
    some { c with task := .running place next }
  | .maintaining reason => some { c.maintain reason with task := .dropping }

/-- The drop of the `Running` guard. -/
def dropRunning (c : Controller κ) : Controller κ :=
  { c with state := { c.state with challenge := none, driving := false }, task := .finished }

/-- A step of a call, with what it does next; `none` when it returns. -/
def callStep (c : Controller κ) : Call → Controller κ × Option Call
  | .requesting =>
    (if !c.state.driving && c.state.recoveryStarted.isNone then
      { c with state := { c.state with recoveryStarted := some c.instant } } else c,
      some .storing)
  | .storing => ({ c with requested := true }, some .notifying)
  | .notifying => ({ c with permit := true }, none)
  | .losing => ({ c with routeLost := true }, some .revoking)
  -- The permit is given before the mutex is released.
  | .revoking =>
    ({ c with
      state :=
        { c.state with
          challenge := none
          driving := false
          routeVersion := none
          recoveryStarted := c.recoverySince }
      permit := true }, some .returning)
  | .returning => ({ c with revocations := c.revocations + 1 }, none)

/-- The calls that are under way after a step of one of them. -/
def remaining (calls : List Call) (index : Nat) : Option Call → List Call
  | some next => calls.set index next
  | none => calls.eraseIdx index

inductive Action (κ : Type) where
  | run
  | drive (answer : Answer κ)
  | watch
  /-- `run` is dropped. -/
  | cancel
  | dropRunning
  | requestOwnership
  | challengeRouteLost
  | call (index : Nat)
  | installSnapshot (snapshot : Snapshot κ)
  /-- `export_snapshot`, which changes nothing here. -/
  | exportSnapshot
  | otherAcquires
  | otherExits
  | tick (duration : Nat)
  | setClock (now : Int)

def step (c : Controller κ) : Action κ → Option (Controller κ)
  | .run =>
    if c.running then some c else some { c with running := true, task := .running .top .asleep }
  | .drive answer =>
    match c.task with
    | .running place .asleep =>
      (c.drive options place answer).map fun (next, c') =>
        { c' with task := .running next .asleep }
    | _ => none
  | .watch =>
    match c.task with
    | .running place watchdog => c.watch options place watchdog
    | _ => none
  | .cancel =>
    match c.task with
    | .running place .asleep => if place.awaits then some { c with task := .dropping } else none
    | _ => none
  | .dropRunning =>
    match c.task with
    | .dropping => some c.dropRunning
    | _ => none
  | .requestOwnership => some { c with calls := c.calls ++ [.requesting] }
  | .challengeRouteLost => some { c with calls := c.calls ++ [.losing] }
  | .call index =>
    match c.calls[index]? with
    | some call =>
      some { (c.callStep call).1 with
        calls := remaining c.calls index (c.callStep call).2 }
    | none => none
  | .installSnapshot snapshot => some ((c.install options snapshot).getD c)
  | .exportSnapshot => some c
  | .otherAcquires => if c.holder = .nobody then some { c with holder := .otherProcess } else none
  | .otherExits => if c.holder = .otherProcess then some { c with holder := .nobody } else none
  | .tick duration => some { c with instant := c.instant + duration }
  | .setClock now => some { c with now := now }

def system : Lts (Controller κ) (Action κ) := ⟨step options⟩

end Controller

end

/-- Options for a hostname, with numbers for keys. -/
def exampleOptions : AcmeOptions Nat where
  validation :=
    { hostname := "edge.example.test"
      verifies := fun _ _ => true
      minimumRemaining := 2
      safetyMargin := 1
      safetyMargin_pos := Nat.one_pos
      safetyMargin_lt := Nat.lt_succ_self 1 }
  recoveryTimeout := 300
  recoveryTimeout_pos := Nat.succ_pos _
  requestOwnershipOnStart := true

end Runewarp.ServerCertificate
