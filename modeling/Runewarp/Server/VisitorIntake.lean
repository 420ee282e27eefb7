import Runewarp.Lib.Lts
import Runewarp.Server.VisitorAdmission

/-!
# Visitor intake

Every Visitor the public listener accepts is a task of its own: it reads the PROXY
header and the ClientHello, finds a route, opens a stream on a Tunnel connection and
proxies, or it answers an ACME challenge for the Server hostname.  The tasks share the
Visitor admission.

A step is what a task does up to the next point where others may see a difference: an
await, or a permit or socket that is taken or dropped.  What the Visitor, the Tunnel
peer and the registry answer, and when, is part of the event.  A task can be dropped at
every await, when its join set is.

Rust drops the parameters of a function after its locals and in reverse order, so a
task that leaves early drops its permit first and the socket, its first parameter,
last.  The proxy future owns the socket and is dropped before the permit of its
`ActiveVisitorWork`.
-/

namespace Runewarp.Server

structure ParsedClientHello where
  publicHostname : PublicHostname
  alpnProtocols : List (List UInt8)
  bufferedBytes : List UInt8

/-- `ACME_TLS_ALPN`, the bytes of `acme-tls/1`. -/
def acmeTlsAlpn : List UInt8 := [0x61, 0x63, 0x6d, 0x65, 0x2d, 0x74, 0x6c, 0x73, 0x2f, 0x31]

def ParsedClientHello.offersAlpnProtocol (hello : ParsedClientHello) (protocol : List UInt8) :
    Bool :=
  hello.alpnProtocols.any (· == protocol)

/-- `encode_tunnel_stream`. -/
def encodeTunnelStream (addresses : VisitorTcpAddresses) (bufferedClientHello : List UInt8) :
    Option (List UInt8) :=
  addresses.encodeProxyV2.map (· ++ bufferedClientHello)

/-- `VisitorIntake`, as far as it does not change. -/
structure VisitorIntake where
  serverHostname : ServerHostname
  /-- There is a `public_tls_config`. -/
  publicTlsConfig : Bool
  visitorProxyProtocol : Bool := false
  visitorProxyTrustedNetworks : List TrustedNetwork := []
  /-- There is a certificate controller. -/
  certificate : Bool := false

/-- Why a Visitor is rejected before it is routed. -/
inductive IntakeError where
  | untrustedPeer
  | proxyHeader
  | clientHello
  | timedOut
deriving DecidableEq

/-- A Visitor whose ClientHello has been read. -/
abbrev ParsedVisitor : Type := ParsedClientHello × VisitorTcpAddresses

/-- What comes out of the first part of `intake_until`; `none` when the source has too
many Visitors. -/
abbrev Parsed : Type := Except IntakeError (Option ParsedVisitor)

/-- Where a task stands. -/
inductive IntakePhase where
  /-- Not yet polled. -/
  | spawned
  /-- At the `select!` of `intake_until`. -/
  | selecting (direct : VisitorTcpAddresses)
  | readingProxy
  /-- The addresses are known. -/
  | resolved (addresses : VisitorTcpAddresses)
  | readingHello (addresses : VisitorTcpAddresses)
  | parsed (result : Parsed)
  /-- In `handle_parsed`. -/
  | handling (visitor : ParsedVisitor)
  /-- In `serve_acme_tls_alpn_01`, during the handshake and at the shutdown after it. -/
  | acmeAccept
  | acmeShutdown
  /-- In `route_tunnel_connection`, at the lock of the pools and at that of the members. -/
  | awaitPools (visitor : ParsedVisitor)
  | awaitMembers (visitor : ParsedVisitor)
  /-- In `forward_to_tunnel`. -/
  | forwarding (visitor : ParsedVisitor)
  | opening (visitor : ParsedVisitor)
  | opened (visitor : ParsedVisitor)
  | activated (visitor : ParsedVisitor)
  | registering (visitor : ParsedVisitor)
  | proxying (initialBytes : List UInt8)
  /-- The proxy future is to be dropped. -/
  | proxied
  /-- What the task still has is to be dropped. -/
  | leaving
  | finished

structure IntakeTask where
  phase : IntakePhase := .spawned
  /-- The socket is open. -/
  socket : Bool := true
  visitorPermit : Option VisitorAdmissionPermit := none
  pendingOpenPermit : Bool := false
  activeStreamPermit : Bool := false

inductive IntakeEvent where
  /-- The next step of a task that does not wait. -/
  | proceed
  /-- The first poll, with what `from_socket` gives. -/
  | start (direct : Option VisitorTcpAddresses)
  | proxyRead (addresses : Option VisitorTcpAddresses)
  | helloRead (hello : Option ParsedClientHello)
  | timeout
  | shutdown
  /-- `handle_parsed`, with what the certificate controller and the work gate say. -/
  | handle (serving : Bool) (isSealed : Bool)
  | acmeAccepted (ok : Bool)
  | acmeClosed
  /-- A lock of the registry is taken, and the search goes on or has failed. -/
  | locked (found : Bool)
  | streamOpened (ok : Bool)
  | registered (ok : Bool)
  /-- The proxy is done, or its work is revoked. -/
  | proxyEnds
  /-- The task is dropped. -/
  | drop

namespace IntakeTask

/-- The first part of `intake_until` up to its first await. -/
def beginIntake (intake : VisitorIntake) (direct : VisitorTcpAddresses) : IntakePhase :=
  if intake.visitorProxyProtocol then
    if intake.visitorProxyTrustedNetworks.any (·.contains direct.source.ip) then .readingProxy
    else .parsed (.error .untrustedPeer)
  else .resolved direct

/-- The permit that `use_canonical_source` works on is the task's. -/
def resolve (t : IntakeTask) (a : VisitorAdmission) (permit : VisitorAdmissionPermit)
    (addresses : VisitorTcpAddresses) : IntakeTask × VisitorAdmission :=
  match a.useCanonicalSource permit addresses.source.ip a.limits.maxPendingVisitorsPerSource with
  | .ok (permit, a) =>
    ({ t with phase := .readingHello addresses, visitorPermit := some permit }, a)
  | .error _ => ({ t with phase := .parsed (.ok none) }, a)

/-- Where `handle_parsed` goes. -/
def handle (intake : VisitorIntake) (visitor : ParsedVisitor) (serving isSealed : Bool) :
    IntakePhase :=
  if visitor.1.publicHostname.asStr = intake.serverHostname.asStr then
    if visitor.1.offersAlpnProtocol acmeTlsAlpn then
      if intake.publicTlsConfig then .acmeAccept else .leaving
    else .leaving
  else if intake.certificate && !serving then .leaving
  else if isSealed then .leaving
  else .awaitPools visitor

/-- The future that proxies begins, or it panics where addresses cannot be encoded. -/
def beginProxy (visitor : ParsedVisitor) : IntakePhase :=
  (encodeTunnelStream visitor.2 visitor.1.bufferedBytes).elim .proxied .proxying

/-- A task that leaves drops one thing after the other. -/
def leave (t : IntakeTask) (a : VisitorAdmission) : IntakeTask × VisitorAdmission :=
  match t.visitorPermit with
  | some permit => ({ t with visitorPermit := none }, a.dropVisitor permit)
  | none =>
    if t.pendingOpenPermit then
      ({ t with pendingOpenPermit := false }, a.dropPendingStreamOpen)
    else if t.activeStreamPermit then
      ({ t with activeStreamPermit := false }, a.dropActiveRoutedStream)
    else ({ t with socket := false, phase := .finished }, a)

/-- After the proxy future the `ActiveVisitorWork` is dropped. -/
def afterProxy (t : IntakeTask) (a : VisitorAdmission) : IntakeTask × VisitorAdmission :=
  if t.socket then ({ t with socket := false }, a)
  else ({ t with activeStreamPermit := false, phase := .finished }, a.dropActiveRoutedStream)

/-- What a task does next when it does not wait. -/
def proceed (intake : VisitorIntake) (t : IntakeTask) (a : VisitorAdmission) :
    Option (IntakeTask × VisitorAdmission) :=
  match t.phase with
  | .selecting direct => some ({ t with phase := beginIntake intake direct }, a)
  | .resolved addresses =>
    t.visitorPermit.map fun permit => t.resolve a permit addresses
  | .parsed result =>
    t.visitorPermit.map fun permit =>
      let phase := match result with
        | .ok (some visitor) => .handling visitor
        | .ok none | .error _ => .leaving
      ({ t with phase := phase, visitorPermit := none }, a.dropVisitor permit)
  | .forwarding visitor =>
    match a.tryAdmitPendingStreamOpen with
    | .ok a => some ({ t with phase := .opening visitor, pendingOpenPermit := true }, a)
    | .error _ => some ({ t with phase := .leaving }, a)
  | .opened visitor =>
    match a.tryAdmitActiveRoutedStream with
    | .ok a => some ({ t with phase := .activated visitor, activeStreamPermit := true }, a)
    | .error _ => some ({ t with phase := .leaving }, a)
  | .activated visitor =>
    some ({ t with phase := .registering visitor, pendingOpenPermit := false },
      a.dropPendingStreamOpen)
  | .proxied => some (t.afterProxy a)
  | .leaving => some (t.leave a)
  | _ => none

/-- Where a task goes when it is dropped; `none` where it does not wait. -/
def dropped : IntakePhase → Option IntakePhase
  | .spawned | .readingProxy | .readingHello _ | .acmeAccept | .acmeShutdown | .awaitPools _
  | .awaitMembers _ | .opening _ => some .leaving
  | .proxying _ => some .proxied
  | _ => none

/-- Where a task goes with an event that takes or drops nothing. -/
def advance (intake : VisitorIntake) : IntakePhase → IntakeEvent → Option IntakePhase
  | .spawned, .start (some direct) => some (.selecting direct)
  | .spawned, .start none => some .leaving
  | .selecting _, .shutdown => some .leaving
  | .readingProxy, .proxyRead (some addresses) => some (.resolved addresses)
  | .readingProxy, .proxyRead none => some (.parsed (.error .proxyHeader))
  | .readingProxy, .timeout => some (.parsed (.error .timedOut))
  | .readingProxy, .shutdown => some .leaving
  | .readingHello addresses, .helloRead (some hello) =>
    some (.parsed (.ok (some (hello, addresses))))
  | .readingHello _, .helloRead none => some (.parsed (.error .clientHello))
  | .readingHello _, .timeout => some (.parsed (.error .timedOut))
  | .readingHello _, .shutdown => some .leaving
  | .handling visitor, .handle serving isSealed => some (handle intake visitor serving isSealed)
  | .acmeAccept, .acmeAccepted ok => some (if ok then .acmeShutdown else .leaving)
  | .acmeShutdown, .acmeClosed => some .leaving
  | .awaitPools visitor, .locked found => some (if found then .awaitMembers visitor else .leaving)
  | .awaitMembers visitor, .locked found => some (if found then .forwarding visitor else .leaving)
  | .opening visitor, .streamOpened ok => some (if ok then .opened visitor else .leaving)
  | .registering visitor, .registered ok => some (if ok then beginProxy visitor else .leaving)
  | .proxying _, .proxyEnds => some .proxied
  | phase, .drop => dropped phase
  | _, _ => none

def step (intake : VisitorIntake) (t : IntakeTask) (a : VisitorAdmission) :
    IntakeEvent → Option (IntakeTask × VisitorAdmission)
  | .proceed => t.proceed intake a
  | event => (advance intake t.phase event).map fun phase => ({ t with phase := phase }, a)

end IntakeTask

/-- The intake of one Server. -/
structure Intake where
  intake : VisitorIntake
  admission : VisitorAdmission
  tasks : List IntakeTask := []

namespace Intake

def start (intake : VisitorIntake) (limits : VisitorLimits) : Intake where
  intake := intake
  admission := VisitorAdmission.new limits

inductive Action where
  /-- The public listener accepts a Visitor: `accepted_task`. -/
  | accept
  | on (i : Nat) (event : IntakeEvent)

def step (s : Intake) : Action → Option Intake
  | .accept =>
    match s.admission.tryAdmitVisitorGlobal with
    | .ok (permit, a) =>
      some { s with admission := a, tasks := s.tasks ++ [{ visitorPermit := some permit }] }
    -- The socket is closed at once and nothing is spawned.
    | .error _ => some s
  | .on i event =>
    match s.tasks[i]? with
    | none => none
    | some t =>
      (t.step s.intake s.admission event).map fun (t', a) =>
        { s with admission := a, tasks := s.tasks.set i t' }

def system : Lts Intake Action := ⟨step⟩

end Intake

end Runewarp.Server
