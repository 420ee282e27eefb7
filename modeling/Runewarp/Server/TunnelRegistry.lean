import Runewarp.Lib.Lts
import Runewarp.Lib.RwLock
import Runewarp.Server.Authorization
import Runewarp.Server.ActiveClient
import Mathlib.Logic.Function.Basic

/-!
# The Tunnel registry

`TunnelRegistry` couples the Authorization snapshot, the vector of Tunnel pools
and the table of active Visitor work.  Its operations are asynchronous, so the
model is a transition system: the state holds the shared data and one program
counter for each call in progress, and a step runs one task from an await or a
lock acquisition to the next.

The operations are

- `register`, for a new Tunnel connection;
- `replace_authorization`, which the Managed session calls one at a time;
- `route_tunnel_connection` and `register_active_visitor_work`, for a Visitor;
- `close_all` and `shutdown_connections`, at shutdown;
- the tasks the pools spawn: a close watcher per member, and the task that
  keeps a revoked member's permit until its connection has closed.

Pools are shared handles.  `pools` is the heap they live in and `tunnelPools`
is the vector of handles under the `tunnel_pools` lock.  QUIC close is
immediate and permanent: `closed` only grows.
-/

namespace Runewarp.Server

/-! ## Shared data -/

/-- Names a pool. -/
abbrev PoolId : Type := Nat

/-- `Arc<AuthorizationSnapshot>`.  `Arc::ptr_eq` compares `alloc`. -/
structure SnapshotRef where
  alloc : Nat
  snapshot : ManagedSnapshot

/-- The tasks that take the `tunnel_pools` lock. -/
inductive Holder where
  | register (t : Nat)
  | replace
  | visitor (t : Nat)
  | call (t : Nat)
  | report (t : Nat)
deriving DecidableEq

/-- `ActiveVisitorWorkRecord` with its key.  The abort handle fires when
`abortRequested` is set. -/
structure ActiveVisitorWorkRecord where
  streamId : Nat
  publicHostname : PublicHostname
  memberId : Nat
  clientIdentity : ClientIdentity
  abortRequested : Bool
deriving DecidableEq

structure ActiveVisitorWorkSet where
  work : List ActiveVisitorWorkRecord := []
  pendingAdmissions : Nat := 0
  isSealed : Bool := false

structure LiveWorkDispatch where
  connectionsClosed : Nat
  streamsReset : Nat
deriving DecidableEq

inductive TunnelRegistrationOutcome where
  | registered
  | rejected (rejection : AdmissionRejection)
  | closed
deriving DecidableEq

/-- `VisitorRoute`.  The pending admission is the task's. -/
structure VisitorRoute where
  connection : SelectedTunnelConnection
  authorization : SnapshotRef

/-- `ActiveVisitorWork`, with the route it was registered from and the snapshot
that was current then. -/
structure ActiveVisitorWork where
  streamId : Nat
  publicHostname : PublicHostname
  route : VisitorRoute
  registeredUnder : SnapshotRef

/-! ## Tasks -/

/-- A call of `register`. -/
inductive RegisterTask where
  /-- At `tunnel_pools.read().await`. -/
  | awaitPools (c : ServerTunnel)
  /-- Holds the read guard. -/
  | readPools (c : ServerTunnel)
  /-- At `members.write().await` of `try_register`. -/
  | tryRegister (c : ServerTunnel) (pool : PoolId)
  | returned (c : ServerTunnel) (outcome : TunnelRegistrationOutcome)
deriving DecidableEq

/-- The connection a call of `register` is for. -/
def RegisterTask.connection : RegisterTask → ServerTunnel
  | .awaitPools c => c
  | .readPools c => c
  | .tryRegister c _ => c
  | .returned c _ => c

/-- Whether a call of `register` has returned. -/
def RegisterTask.isReturned : RegisterTask → Bool
  | .returned _ _ => true
  | _ => false

/-- The call of `replace_authorization` in progress.  From `locked` to `adopting`
it holds the write guard. -/
inductive ReplaceTask where
  /-- At `tunnel_pools.write().await`. -/
  | awaitPools (previous prepared : SnapshotRef)
  /-- Before the commit of the snapshot. -/
  | locked (previous prepared : SnapshotRef)
  /-- At `close_connections_for_identities` of the first of `todo`. -/
  | closing (previous next : SnapshotRef) (removed : List ClientIdentity) (todo : List PoolId)
      (connectionsClosed : Nat)
  /-- At `take_members` of the first of `todo`. -/
  | taking (previous next : SnapshotRef) (todo : List PoolId) (taken : List TakenPoolMember)
      (connectionsClosed : Nat)
  /-- At the head of the adoption loop. -/
  | adopting (next : SnapshotRef) (todo : List TakenPoolMember) (connectionsClosed : Nat)
  /-- At `members.write().await` of `adopt_member`. -/
  | adoptPush (next : SnapshotRef) (pool : PoolId) (member : PoolMember)
      (todo : List TakenPoolMember) (connectionsClosed : Nat)
  /-- Before the reset of Visitor streams. -/
  | resetting (next : SnapshotRef) (connectionsClosed : Nat)
  /-- Before the readiness mark. -/
  | finishing (dispatch : LiveWorkDispatch)

/-- The close watcher of a member. -/
structure CloseWatcher where
  connection : ServerTunnel
  pool : PoolId
  memberId : Nat

/-- The tasks of a Visitor: `route_tunnel_connection`, then `forward_to_tunnel`. -/
inductive VisitorTask where
  /-- At `tunnel_pools.read().await`. -/
  | awaitPools (h : PublicHostname)
  /-- Holds the read guard. -/
  | readPools (h : PublicHostname)
  /-- At `members.read().await` of `select_connection`. -/
  | select (h : PublicHostname) (authorization : SnapshotRef) (pool : PoolId)
  /-- Routed; opening the stream. -/
  | routed (h : PublicHostname) (route : VisitorRoute)
  /-- Registered; `run` has not been polled. -/
  | registered (work : ActiveVisitorWork)
  /-- The proxy future has started. -/
  | proxying (work : ActiveVisitorWork)
  | finished

/-- The two ways shutdown reaches the connections of every pool. -/
inductive CallKind where
  | closeAll
  | shutdownConnections
deriving DecidableEq

/-- A call of `close_all` or `shutdown_connections`.  `members` are the
connections that were pool members when the call began. -/
inductive ShutdownCall where
  /-- At `tunnel_pools.read().await`. -/
  | awaitPools (kind : CallKind) (members : List ServerTunnel)
  /-- Holds the read guard. -/
  | readPools (kind : CallKind) (members : List ServerTunnel)
  /-- At `members.read().await` of the first of `todo`.  `spawned` are the
  connections whose `shutdown` task has not been polled, `running` those whose
  task has not ended. -/
  | visiting (kind : CallKind) (members : List ServerTunnel) (todo : List PoolId)
      (spawned running : List ServerTunnel)
  | returned (kind : CallKind) (members : List ServerTunnel)

/-! ## State -/

/-- The registry and the tasks that work on it. -/
structure TunnelRegistry where
  authorization : SnapshotRef
  /-- The next allocation of a snapshot. -/
  nextAlloc : Nat
  poolsLock : RwLock Holder := .unlocked
  tunnelPools : List PoolId
  pools : PoolId → ActiveClientPool := fun _ => {}
  nextPool : PoolId
  admission : TunnelConnectionAdmission
  acceptingTunnelConnections : Bool := true
  visitorWork : ActiveVisitorWorkSet := {}
  nextStreamId : Nat := 1
  /-- The stream counters members and work share. -/
  activeStreams : Nat → Nat := fun _ => 0
  nextCounter : Nat := 0
  firstApplyCompleted : Bool := false
  /-- The readiness gate, once set, and whether it is marked ready. -/
  readiness : Option Bool := none
  /-- The connections that have closed. -/
  closed : ServerTunnel → Bool := fun _ => false
  /-- The connections `ServerTunnel::shutdown` was called on. -/
  shutdownCalled : ServerTunnel → Bool := fun _ => false
  /-- The connections that were withdrawn or got GOAWAY. -/
  refusing : ServerTunnel → Bool := fun _ => false
  registers : Nat → Option RegisterTask := fun _ => none
  nextConnection : Nat := 0
  replace : Option ReplaceTask := none
  watchers : Nat → Option CloseWatcher := fun _ => none
  nextWatcher : Nat := 0
  /-- The tasks of `release_admission_after_close`. -/
  releases : List (ServerTunnel × TunnelConnectionPermit) := []
  visitors : Nat → Option VisitorTask := fun _ => none
  nextVisitor : Nat := 0
  calls : Nat → Option ShutdownCall := fun _ => none
  nextCall : Nat := 0
  /-- The stream IDs reset so far, one entry per abort. -/
  resets : List Nat := []
  /-- The results of the calls of `replace_authorization` that returned. -/
  dispatches : List LiveWorkDispatch := []

namespace TunnelRegistry

/-- `from_authorization_with_admission` of a managed authorization. -/
def fromAuthorizationWithAdmission (snapshot : ManagedSnapshot) (limits : ServerAdmissionLimits) :
    TunnelRegistry where
  authorization := ⟨0, snapshot⟩
  nextAlloc := 1
  tunnelPools := List.range snapshot.val.tunnelCount
  nextPool := snapshot.val.tunnelCount
  admission := { limits := limits }

/-- `ServerTunnel::close` on each of `cs`. -/
def close (s : TunnelRegistry) (cs : List ServerTunnel) : TunnelRegistry :=
  { s with closed := fun c => s.closed c || decide (c ∈ cs) }

def setPool (s : TunnelRegistry) (p : PoolId) (pool : ActiveClientPool) : TunnelRegistry :=
  { s with pools := Function.update s.pools p pool }

def setRegister (s : TunnelRegistry) (t : Nat) (task : RegisterTask) : TunnelRegistry :=
  { s with registers := Function.update s.registers t (some task) }

def setVisitor (s : TunnelRegistry) (t : Nat) (task : VisitorTask) : TunnelRegistry :=
  { s with visitors := Function.update s.visitors t (some task) }

def setCall (s : TunnelRegistry) (t : Nat) (call : ShutdownCall) : TunnelRegistry :=
  { s with calls := Function.update s.calls t (some call) }

/-- Spawn a close watcher. -/
def spawnWatcher (s : TunnelRegistry) (watcher : CloseWatcher) : TunnelRegistry :=
  { s with
    watchers := Function.update s.watchers s.nextWatcher (some watcher)
    nextWatcher := s.nextWatcher + 1 }

/-- The connections of the pools of the vector. -/
def members (s : TunnelRegistry) : List ServerTunnel :=
  s.tunnelPools.flatMap fun p => (s.pools p).connections

/-! ## `register` -/

/-- The call of `register` for a new connection of Client identity `c`. -/
def startRegister (s : TunnelRegistry) (c : ClientIdentity) : TunnelRegistry :=
  let t := s.nextConnection
  let connection : ServerTunnel := ⟨t, c⟩
  let s := { s with nextConnection := t + 1 }
  if s.acceptingTunnelConnections then s.setRegister t (.awaitPools connection)
  else (s.close [connection]).setRegister t (.returned connection .closed)

/-- The critical section of `try_register` and what `register` makes of its result. -/
def tryRegister (s : TunnelRegistry) (t : Nat) (c : ServerTunnel) (p : PoolId) :
    TunnelRegistry :=
  match (s.pools p).tryRegister s.admission c s.nextWatcher s.nextCounter with
  | .ok (member, pool, admission) =>
    let s := { s with admission := admission, nextCounter := s.nextCounter + 1 }
    ((s.setPool p pool).spawnWatcher ⟨c, p, member.memberId⟩).setRegister t
      (.returned c .registered)
  | .error rejection => (s.close [c]).setRegister t (.returned c (.rejected rejection))

/-- One step of a call of `register`. -/
def pollRegister (s : TunnelRegistry) (t : Nat) : Option TunnelRegistry :=
  match s.registers t with
  | some (.awaitPools c) =>
    (s.poolsLock.read (.register t)).map fun lock =>
      { s with poolsLock := lock }.setRegister t (.readPools c)
  | some (.readPools c) =>
    let s := { s with poolsLock := s.poolsLock.releaseRead (.register t) }
    match s.authorization.snapshot.index c.clientIdentity with
    | none => some ((s.close [c]).setRegister t (.returned c .closed))
    | some i =>
      match s.tunnelPools[i]? with
      | none => some ((s.close [c]).setRegister t (.returned c .closed))
      | some p => some (s.setRegister t (.tryRegister c p))
  | some (.tryRegister c p) => some (s.tryRegister t c p)
  | some (.returned _ _) | none => none

/-! ## `replace_authorization` -/

/-- `pools_by_id`: the pools of the previous vector by Tunnel ID. -/
def poolsById (ids : List TunnelId) (pools : List PoolId) : HashMap TunnelId PoolId :=
  (ids.zip pools).foldl (fun byId entry => byId.insert entry.1 entry.2) ∅

/-- The loop over the next Tunnel IDs; `fresh` names the next new pool. -/
def rebuildPools : List TunnelId → HashMap TunnelId PoolId → PoolId → List PoolId × PoolId
  | [], _, fresh => ([], fresh)
  | id :: ids, byId, fresh =>
    match byId.lookup id with
    | some p =>
      let rest := rebuildPools ids (byId.erase id) fresh
      (p :: rest.1, rest.2)
    | none =>
      let rest := rebuildPools ids byId (fresh + 1)
      (fresh :: rest.1, rest.2)

/-- The vector a commit from `previous` to `next` installs, and the next new pool. -/
def rebuilt (s : TunnelRegistry) (previous next : SnapshotRef) : List PoolId × PoolId :=
  rebuildPools next.snapshot.tunnelIds
    (poolsById previous.snapshot.tunnelIds s.tunnelPools) s.nextPool

def streamRemainsAuthorized (stream : ActiveVisitorWorkRecord) (snapshot : ManagedSnapshot) :
    Bool :=
  match snapshot.hostIndex stream.publicHostname, snapshot.index stream.clientIdentity with
  | some ho, some identityTunnel => ho == identityTunnel
  | _, _ => false

/-- Whether `reset_streams_matching` aborts a stream. -/
def resets? (snapshot : ManagedSnapshot) (stream : ActiveVisitorWorkRecord) : Bool :=
  !stream.abortRequested && !streamRemainsAuthorized stream snapshot

/-- `reset_streams_matching` for the streams a snapshot no longer authorizes. -/
def resetStreamsMatching (snapshot : ManagedSnapshot) (work : List ActiveVisitorWorkRecord) :
    List ActiveVisitorWorkRecord :=
  work.map fun stream =>
    if resets? snapshot stream then { stream with abortRequested := true } else stream

/-- The call of `replace_authorization` with a valid input, at its first await. -/
def beginReplace (s : TunnelRegistry) (snapshot : ManagedSnapshot) : TunnelRegistry :=
  { s with
    nextAlloc := s.nextAlloc + 1
    replace := some (.awaitPools s.authorization ⟨s.nextAlloc, snapshot⟩) }

/-- `replace_authorization` up to the first await of the commit.  An invalid
input is rejected beside the live snapshot and changes nothing. -/
def startReplace (s : TunnelRegistry) (serverHostname : ServerHostname)
    (tunnels : List ServerTunnelConfig) : Option TunnelRegistry :=
  match s.replace with
  | some _ => none
  | none =>
    match ManagedSnapshot.ofTunnels serverHostname tunnels with
    | .error _ => some s
    | .ok snapshot => some (s.beginReplace snapshot)

/-- One step of the call of `replace_authorization`. -/
def pollReplace (s : TunnelRegistry) : Option TunnelRegistry :=
  match s.replace with
  | none => none
  | some (.awaitPools previous prepared) =>
    (s.poolsLock.write .replace).map fun lock =>
      { s with poolsLock := lock, replace := some (.locked previous prepared) }
  | some (.locked previous next) =>
    let removed := ManagedSnapshot.removedIdentities previous.snapshot next.snapshot
    some { s with
      authorization := next
      replace := some
        (if removed = [] then .taking previous next s.tunnelPools [] 0
        else .closing previous next removed s.tunnelPools 0) }
  | some (.closing previous next removed (p :: todo) n) =>
    let revoked := (s.pools p).connectionsForIdentities removed
    some { s.close revoked with
      replace := some (.closing previous next removed todo (n + revoked.length)) }
  | some (.closing previous next _ [] n) =>
    some { s with replace := some (.taking previous next s.tunnelPools [] n) }
  | some (.taking previous next (p :: todo) taken n) =>
    let result := (s.pools p).takeMembers
    some { s.setPool p result.2 with
      replace := some (.taking previous next todo (taken ++ result.1) n) }
  | some (.taking previous next [] taken n) =>
    let result := s.rebuilt previous next
    some { s with
      tunnelPools := result.1
      nextPool := result.2
      replace := some (.adopting next taken n) }
  | some (.adopting next (member :: todo) n) =>
    match next.snapshot.index member.clientIdentity with
    | none =>
      some { s with
        releases := (member.connection, member.admissionPermit) :: s.releases
        replace := some (.adopting next todo n) }
    | some i =>
      match s.tunnelPools[i]? with
      | none =>
        some { s with
          admission := s.admission.release member.admissionPermit
          replace := some (.adopting next todo n) }
      | some p =>
        let result := (s.pools p).beginAdopt member s.nextWatcher
        let s := { s with
          watchers := Function.update s.watchers member.closeWatcher none }
        let s := (s.setPool p result.2).spawnWatcher
          ⟨member.connection, p, result.1.memberId⟩
        some { s with replace := some (.adoptPush next p result.1 todo n) }
  | some (.adoptPush next p member todo n) =>
    some { s.setPool p ((s.pools p).push member) with
      replace := some (.adopting next todo n) }
  | some (.adopting next [] n) =>
    some { s with
      poolsLock := s.poolsLock.releaseWrite
      replace := some (.resetting next n) }
  | some (.resetting next n) =>
    let aborted := (s.visitorWork.work.filter (resets? next.snapshot)).map
      fun stream => stream.streamId
    some { s with
      visitorWork := { s.visitorWork with
        work := resetStreamsMatching next.snapshot s.visitorWork.work }
      resets := s.resets ++ aborted
      replace := some (.finishing ⟨n, aborted.length⟩) }
  | some (.finishing dispatch) =>
    some { s with
      readiness := if s.firstApplyCompleted then s.readiness else s.readiness.map fun _ => true
      firstApplyCompleted := true
      replace := none
      dispatches := s.dispatches ++ [dispatch] }

/-- The effect of dropping the future of `replace_authorization` at an await.
The members it holds are dropped with their permits; their close watchers keep
the connections open. -/
def dropReplace (s : TunnelRegistry) : Option TunnelRegistry :=
  match s.replace with
  | some (.awaitPools _ _) => some { s with replace := none }
  | some (.closing _ _ _ (_ :: _) _) =>
    some { s with poolsLock := s.poolsLock.releaseWrite, replace := none }
  | some (.taking _ _ (_ :: _) taken _) =>
    some { s with
      poolsLock := s.poolsLock.releaseWrite
      admission := s.admission.releaseAll (taken.map fun m => m.admissionPermit)
      replace := none }
  | some (.adoptPush _ _ member todo _) =>
    some { s with
      poolsLock := s.poolsLock.releaseWrite
      admission := s.admission.releaseAll
        (member.admissionPermit :: todo.map fun m => m.admissionPermit)
      replace := none }
  | _ => none

/-! ## Tasks of the pools -/

/-- A close watcher, once its connection has closed, removes its member. -/
def runWatcher (s : TunnelRegistry) (w : Nat) : Option TunnelRegistry :=
  match s.watchers w with
  | none => none
  | some watcher =>
    if s.closed watcher.connection then
      let result := (s.pools watcher.pool).removeMember watcher.memberId
      let s := { s with
        watchers := Function.update s.watchers w none
        admission := s.admission.releaseAll
          (result.1.map fun m : PoolMember => m.admissionPermit) }
      some (s.setPool watcher.pool result.2)
    else none

/-- A task of `release_admission_after_close`, once its connection has closed. -/
def runRelease (s : TunnelRegistry) (c : ServerTunnel) (permit : TunnelConnectionPermit) :
    Option TunnelRegistry :=
  if (c, permit) ∈ s.releases ∧ s.closed c = true then
    some { s with
      releases := s.releases.erase (c, permit)
      admission := s.admission.release permit }
  else none

/-! ## Visitors -/

/-- `begin_active_visitor_admission`, then `route_tunnel_connection` up to its first await. -/
def startVisitor (s : TunnelRegistry) (h : PublicHostname) : TunnelRegistry :=
  let t := s.nextVisitor
  let s := { s with nextVisitor := t + 1 }
  if s.visitorWork.isSealed then s.setVisitor t .finished
  else
    { s with
      visitorWork := { s.visitorWork with
        pendingAdmissions := s.visitorWork.pendingAdmissions + 1 } }.setVisitor t (.awaitPools h)

/-- `Drop for ActiveVisitorAdmission`, at the end of a Visitor that was not registered. -/
def dropAdmission (s : TunnelRegistry) (t : Nat) : TunnelRegistry :=
  { s with
    visitorWork := { s.visitorWork with
      pendingAdmissions := s.visitorWork.pendingAdmissions - 1 } }.setVisitor t .finished

/-- `Drop for ActiveVisitorWork`. -/
def dropWork (s : TunnelRegistry) (t : Nat) (work : ActiveVisitorWork) : TunnelRegistry :=
  let counter := work.route.connection.activeStreams
  { s with
    activeStreams := Function.update s.activeStreams counter (s.activeStreams counter - 1)
    visitorWork := { s.visitorWork with
      work := s.visitorWork.work.filter
        fun stream => decide (stream.streamId ≠ work.streamId) } }.setVisitor t .finished

/-- `ServerTunnel::accepts_visitors`. -/
def acceptsVisitors (s : TunnelRegistry) (c : ServerTunnel) : Bool :=
  !s.refusing c && !s.closed c

/-- The record `register_active_visitor_work` inserts. -/
def workRecord (s : TunnelRegistry) (h : PublicHostname) (route : VisitorRoute) :
    ActiveVisitorWorkRecord where
  streamId := s.nextStreamId
  publicHostname := h
  memberId := route.connection.memberId
  clientIdentity := route.connection.clientIdentity
  abortRequested := false

/-- Whether a route is still current and authorized: the snapshot is the very one
it was computed from, and maps both names to one Tunnel. -/
def remainsCurrentAndAuthorized (s : TunnelRegistry) (h : PublicHostname) (route : VisitorRoute) :
    Bool :=
  decide (route.authorization.alloc = s.authorization.alloc) &&
    streamRemainsAuthorized (s.workRecord h route) s.authorization.snapshot

def registerActiveVisitorWork (s : TunnelRegistry) (t : Nat) (h : PublicHostname)
    (route : VisitorRoute) : TunnelRegistry :=
  if s.visitorWork.isSealed || !s.remainsCurrentAndAuthorized h route then s.dropAdmission t
  else
    let counter := route.connection.activeStreams
    { s with
      visitorWork := { s.visitorWork with
        pendingAdmissions := s.visitorWork.pendingAdmissions - 1
        work := s.visitorWork.work ++ [s.workRecord h route] }
      nextStreamId := s.nextStreamId + 1
      activeStreams := Function.update s.activeStreams counter
        (s.activeStreams counter + 1) }.setVisitor t
          (.registered ⟨s.nextStreamId, h, route, s.authorization⟩)

/-- Whether the abort handle of a stream has fired. -/
def aborted (s : TunnelRegistry) (streamId : Nat) : Bool :=
  s.visitorWork.work.any fun stream => decide (stream.streamId = streamId) && stream.abortRequested

/-- One step of a Visitor. -/
def pollVisitor (s : TunnelRegistry) (t : Nat) : Option TunnelRegistry :=
  match s.visitors t with
  | some (.awaitPools h) =>
    (s.poolsLock.read (.visitor t)).map fun lock =>
      { s with poolsLock := lock }.setVisitor t (.readPools h)
  | some (.readPools h) =>
    let s := { s with poolsLock := s.poolsLock.releaseRead (.visitor t) }
    match s.authorization.snapshot.hostIndex h with
    | none => some (s.dropAdmission t)
    | some i =>
      match s.tunnelPools[i]? with
      | none => some (s.dropAdmission t)
      | some p => some (s.setVisitor t (.select h s.authorization p))
  | some (.select h authorization p) =>
    let result := (s.pools p).selectConnection s.acceptsVisitors s.activeStreams
    let s := s.setPool p result.2
    match result.1 with
    | none => some (s.dropAdmission t)
    | some connection => some (s.setVisitor t (.routed h ⟨connection, authorization⟩))
  | some (.routed h route) => some (s.registerActiveVisitorWork t h route)
  | some (.registered work) =>
    -- `Abortable` asks its handle before it first polls the proxy future.
    if s.aborted work.streamId then some (s.dropWork t work)
    else some (s.setVisitor t (.proxying work))
  | some (.proxying work) => some (s.dropWork t work)
  | some .finished | none => none

/-- A Visitor dropped at an await, or a route given up before registration. -/
def dropVisitor (s : TunnelRegistry) (t : Nat) : Option TunnelRegistry :=
  match s.visitors t with
  | some (.awaitPools _) | some (.select _ _ _) | some (.routed _ _) => some (s.dropAdmission t)
  | some (.registered work) | some (.proxying work) => some (s.dropWork t work)
  | some (.readPools _) | some .finished | none => none

/-! ## Shutdown -/

def stopAcceptingNewWork (s : TunnelRegistry) : TunnelRegistry :=
  { s with
    acceptingTunnelConnections := false
    visitorWork := { s.visitorWork with isSealed := true } }

/-- A call of `close_all` or `shutdown_connections`. -/
def startCall (s : TunnelRegistry) (kind : CallKind) : TunnelRegistry :=
  { s with nextCall := s.nextCall + 1 }.setCall s.nextCall (.awaitPools kind s.members)

/-- One step of a call of `close_all` or `shutdown_connections`. -/
def pollCall (s : TunnelRegistry) (t : Nat) : Option TunnelRegistry :=
  match s.calls t with
  | some (.awaitPools kind members) =>
    (s.poolsLock.read (.call t)).map fun lock =>
      { s with poolsLock := lock }.setCall t (.readPools kind members)
  | some (.readPools kind members) =>
    some ({ s with poolsLock := s.poolsLock.releaseRead (.call t) }.setCall t
      (.visiting kind members s.tunnelPools [] []))
  | some (.visiting .closeAll members (p :: todo) spawned running) =>
    some ((s.close (s.pools p).connections).setCall t
      (.visiting .closeAll members todo spawned running))
  | some (.visiting .shutdownConnections members (p :: todo) spawned running) =>
    some (s.setCall t (.visiting .shutdownConnections members todo
      (spawned ++ (s.pools p).connections) running))
  | some (.visiting kind members [] [] []) => some (s.setCall t (.returned kind members))
  | some (.visiting _ _ [] _ _) | some (.returned _ _) | none => none

/-- One step of the task that `shutdown_connections` spawned for `c`.
`ServerTunnel::shutdown` starts the orderly end, which refuses new Visitors,
and closes the connection before it returns. -/
def pollShutdown (s : TunnelRegistry) (t : Nat) (c : ServerTunnel) : Option TunnelRegistry :=
  match s.calls t with
  | some (.visiting kind members todo spawned running) =>
    if c ∈ spawned then
      some ({ s with
        shutdownCalled := Function.update s.shutdownCalled c true
        refusing := Function.update s.refusing c true }.setCall t
          (.visiting kind members todo (spawned.erase c) (c :: running)))
    else if c ∈ running then
      some ((s.close [c]).setCall t (.visiting kind members todo spawned (running.erase c)))
    else none
  | _ => none

/-! ## Steps -/

/-- What can happen next. -/
inductive Action where
  | register (c : ClientIdentity)
  | pollRegister (t : Nat)
  | replaceAuthorization (serverHostname : ServerHostname) (tunnels : List ServerTunnelConfig)
  | pollReplace
  | runWatcher (w : Nat)
  | runRelease (c : ServerTunnel) (permit : TunnelConnectionPermit)
  | visitor (h : PublicHostname)
  | pollVisitor (t : Nat)
  | dropVisitor (t : Nat)
  | setReadiness
  | stopAcceptingNewWork
  | call (kind : CallKind)
  | pollCall (t : Nat)
  | pollShutdown (t : Nat) (c : ServerTunnel)
  /-- The peer or the transport ends a connection. -/
  | connectionEnds (c : ServerTunnel)
  /-- The Client withdraws a connection, or GOAWAY is exchanged on it. -/
  | refuses (c : ServerTunnel)

/-- The registry as a transition system. -/
def system : Lts TunnelRegistry Action where
  step s
    | .register c => some (s.startRegister c)
    | .pollRegister t => s.pollRegister t
    | .replaceAuthorization serverHostname tunnels => s.startReplace serverHostname tunnels
    | .pollReplace => s.pollReplace
    | .runWatcher w => s.runWatcher w
    | .runRelease c permit => s.runRelease c permit
    | .visitor h => some (s.startVisitor h)
    | .pollVisitor t => s.pollVisitor t
    | .dropVisitor t => s.dropVisitor t
    | .setReadiness => some { s with readiness := some false }
    | .stopAcceptingNewWork => some s.stopAcceptingNewWork
    | .call kind => some (s.startCall kind)
    | .pollCall t => s.pollCall t
    | .pollShutdown t c => s.pollShutdown t c
    | .connectionEnds c => some (s.close [c])
    | .refuses c => some { s with refusing := Function.update s.refusing c true }

/-- A call of `replace_authorization` and `n` steps of it. -/
def replaceFor (tunnels : List ServerTunnelConfig) (n : Nat) : List Action :=
  .replaceAuthorization ⟨"tunnel.example.test"⟩ tunnels :: List.replicate n .pollReplace

/-- The steps of connection `t`'s call of `register`. -/
def registerFor (c : ClientIdentity) (t : Nat) : List Action :=
  [.register c, .pollRegister t, .pollRegister t, .pollRegister t]

end TunnelRegistry

end Runewarp.Server
