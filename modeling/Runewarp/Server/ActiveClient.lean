import Runewarp.Server.Admission
import Mathlib.Algebra.Group.Nat.Defs
import Mathlib.Data.List.MinMax

/-!
# Pools of Tunnel connections

An `ActiveClientPool` holds the live Tunnel connections of one Tunnel.  The
handle is shared, so the registry keeps the pools in a heap and passes their
names.  Each operation below is one critical section of the pool's `members`
lock; the registry model interleaves them.

A member pins the Client identity its connection authenticated.  The equation
is a field, so that no later proof carries it.
-/

namespace Runewarp.Server

/-- `Arc<ServerTunnel>`: a Tunnel connection with its authenticated identity. -/
structure ServerTunnel where
  /-- Names the connection. -/
  id : Nat
  clientIdentity : ClientIdentity
deriving DecidableEq

/-- `TakenPoolMember`: a member detached from its pool. -/
structure TakenPoolMember where
  clientIdentity : ClientIdentity
  connection : ServerTunnel
  /-- Names the shared counter of open Visitor streams. -/
  activeStreams : Nat
  /-- Names the task that waits for the connection to close. -/
  closeWatcher : Nat
  admissionPermit : TunnelConnectionPermit
  /-- The identity is the one the connection authenticated. -/
  authenticated : clientIdentity = connection.clientIdentity
deriving DecidableEq

structure PoolMember extends TakenPoolMember where
  memberId : Nat
deriving DecidableEq

structure SelectedTunnelConnection where
  memberId : Nat
  clientIdentity : ClientIdentity
  connection : ServerTunnel
  activeStreams : Nat
deriving DecidableEq

/-- `ActiveClientPool`, less the shared admission handle. -/
structure ActiveClientPool where
  members : List PoolMember := []
  nextMemberId : Nat := 1
  nextRoundRobinOffset : Nat := 0

/-- `least_active_index`: the first eligible index of minimal load, in cyclic
order from `start`.  `load` answers `none` for a member that takes no Visitors. -/
def leastActiveIndex (len start : Nat) (load : Nat → Option Nat) : Option Nat :=
  let candidates := (List.range len).filterMap fun offset =>
    let index := (start + offset) % len
    (load index).map fun active => (index, active)
  (candidates.argmin Prod.snd).map Prod.fst

namespace ActiveClientPool

/-- The connections of the members, in order. -/
def connections (pool : ActiveClientPool) : List ServerTunnel :=
  pool.members.map fun m => m.connection

/-- `select_connection`.  `accepts` is `ServerTunnel::accepts_visitors` and
`load` reads a stream counter. -/
def selectConnection (pool : ActiveClientPool) (accepts : ServerTunnel → Bool)
    (load : Nat → Nat) : Option SelectedTunnelConnection × ActiveClientPool :=
  let len := pool.members.length
  if len = 0 then (none, pool)
  else
    let start := pool.nextRoundRobinOffset % len
    -- `fetch_add` wraps.
    let pool' := { pool with
      nextRoundRobinOffset := (pool.nextRoundRobinOffset + 1) % 2 ^ 64 }
    let index := leastActiveIndex len start fun index =>
      match pool.members[index]? with
      | some m => if accepts m.connection then some (load m.activeStreams) else none
      | none => none
    match index.bind fun index => pool.members[index]? with
    | some m => (some ⟨m.memberId, m.clientIdentity, m.connection, m.activeStreams⟩, pool')
    | none => (none, pool')

/-- `try_register`.  `watcher` and `counter` name the close watcher it spawns and
the stream counter it allocates. -/
def tryRegister (pool : ActiveClientPool) (admission : TunnelConnectionAdmission)
    (connection : ServerTunnel) (watcher counter : Nat) :
    Except AdmissionRejection (PoolMember × ActiveClientPool × TunnelConnectionAdmission) :=
  if admission.maxPerTunnel ≤ pool.members.length then
    .error ⟨.tunnelConnectionsPerTunnel, pool.members.length⟩
  else
    match admission.tryAcquire connection.clientIdentity with
    | .error rejection => .error rejection
    | .ok (permit, admission) =>
      let member : PoolMember :=
        { clientIdentity := connection.clientIdentity
          connection := connection
          activeStreams := counter
          closeWatcher := watcher
          admissionPermit := permit
          authenticated := rfl
          memberId := pool.nextMemberId }
      .ok (member,
        { pool with
          members := pool.members ++ [member]
          nextMemberId := pool.nextMemberId + 1 },
        admission)

/-- The connections `close_connections_for_identities` closes. -/
def connectionsForIdentities (pool : ActiveClientPool) (identities : List ClientIdentity) :
    List ServerTunnel :=
  (pool.members.filter fun m => decide (m.clientIdentity ∈ identities)).map fun m => m.connection

/-- `take_members`: the members, and the pool without them. -/
def takeMembers (pool : ActiveClientPool) : List TakenPoolMember × ActiveClientPool :=
  (pool.members.map fun m => m.toTakenPoolMember, { pool with members := [] })

/-- `adopt_member` up to its await: the member under its new name and watcher,
and the pool with the name used up. -/
def beginAdopt (pool : ActiveClientPool) (member : TakenPoolMember) (watcher : Nat) :
    PoolMember × ActiveClientPool :=
  ({ member with closeWatcher := watcher, memberId := pool.nextMemberId },
    { pool with nextMemberId := pool.nextMemberId + 1 })

/-- The last line of `adopt_member`. -/
def push (pool : ActiveClientPool) (member : PoolMember) : ActiveClientPool :=
  { pool with members := pool.members ++ [member] }

/-- The `retain` of a close watcher, with the members it drops. -/
def removeMember (pool : ActiveClientPool) (memberId : Nat) :
    List PoolMember × ActiveClientPool :=
  (pool.members.filter fun m => decide (m.memberId = memberId),
    { pool with members := pool.members.filter fun m => decide (m.memberId ≠ memberId) })

/-! ## Membership -/

variable {pool : ActiveClientPool} {c : ServerTunnel}

theorem mem_connections : c ∈ pool.connections ↔ ∃ m ∈ pool.members, m.connection = c := by
  simp [connections]

theorem mem_connectionsForIdentities {identities : List ClientIdentity} :
    c ∈ pool.connectionsForIdentities identities ↔
      c ∈ pool.connections ∧ c.clientIdentity ∈ identities := by
  simp only [connectionsForIdentities, mem_connections, List.mem_map, List.mem_filter,
    decide_eq_true_eq]
  constructor
  · rintro ⟨m, ⟨hm, hi⟩, rfl⟩
    exact ⟨⟨m, hm, rfl⟩, m.authenticated ▸ hi⟩
  · rintro ⟨⟨m, hm, rfl⟩, hi⟩
    exact ⟨m, ⟨hm, m.authenticated.symm ▸ hi⟩, rfl⟩

theorem mem_removeMember {k : Nat} {m : PoolMember} :
    m ∈ (pool.removeMember k).2.members ↔ m ∈ pool.members ∧ m.memberId ≠ k := by
  simp [removeMember]

@[simp] theorem connections_push (pool : ActiveClientPool) (member : PoolMember) :
    (pool.push member).connections = pool.connections ++ [member.connection] := by
  simp [connections, push]

theorem mem_takeMembers : c ∈ pool.connections ↔ ∃ m ∈ pool.takeMembers.1, m.connection = c := by
  simp [connections, takeMembers]

@[simp] theorem selectConnection_members (pool : ActiveClientPool) (accepts : ServerTunnel → Bool)
    (load : Nat → Nat) : (pool.selectConnection accepts load).2.members = pool.members := by
  unfold selectConnection
  dsimp only
  split
  · rfl
  · split <;> rfl

@[simp] theorem selectConnection_nextMemberId (pool : ActiveClientPool)
    (accepts : ServerTunnel → Bool) (load : Nat → Nat) :
    (pool.selectConnection accepts load).2.nextMemberId = pool.nextMemberId := by
  unfold selectConnection
  dsimp only
  split
  · rfl
  · split <;> rfl

theorem tryRegister_eq_ok {pool' : ActiveClientPool}
    {admission admission' : TunnelConnectionAdmission} {connection : ServerTunnel}
    {watcher counter : Nat} {member : PoolMember}
    (h : pool.tryRegister admission connection watcher counter = .ok (member, pool', admission')) :
    member.connection = connection ∧ member.memberId = pool.nextMemberId ∧
      member.closeWatcher = watcher ∧ member.activeStreams = counter ∧
      admission.tryAcquire connection.clientIdentity = .ok (member.admissionPermit, admission') ∧
      pool'.members = pool.members ++ [member] ∧
      pool'.nextMemberId = pool.nextMemberId + 1 := by
  unfold tryRegister at h
  split at h
  · cases h
  · split at h
    · cases h
    · next permit admission₁ ha =>
      cases h
      exact ⟨rfl, rfl, rfl, rfl, ha, rfl, rfl⟩

end ActiveClientPool

end Runewarp.Server
