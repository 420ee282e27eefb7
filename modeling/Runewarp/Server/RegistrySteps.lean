import Runewarp.Server.TunnelRegistry

/-!
# What a step of the registry can do

The step functions are inverted once here.  `ReplaceStep` lists the moves of
the call of `replace_authorization`.  `PoolsStep` sorts every action by what it
does to the pools and to the snapshot: nothing but closing connections
(`SamePools`), a registration that inserts a member, a close watcher that
removes one, the start of a replacement, or a move of it.
-/

namespace Runewarp.Server

namespace TunnelRegistry

section

variable {s : TunnelRegistry} {p q : PoolId} {pool : ActiveClientPool} {c : ServerTunnel}
  {m : PoolMember}

theorem mem_setPool : c ∈ ((s.setPool p pool).pools q).connections ↔
    (q = p ∧ c ∈ pool.connections) ∨ (q ≠ p ∧ c ∈ (s.pools q).connections) := by
  by_cases hq : q = p
  · subst hq
    simp [setPool]
  · simp [setPool, hq]

theorem mem_setPool_of_mem (h : c ∈ (s.pools q).connections)
    (hk : c ∈ (s.pools p).connections → c ∈ pool.connections) :
    c ∈ ((s.setPool p pool).pools q).connections := by
  by_cases hq : q = p
  · subst hq
    exact mem_setPool.mpr (.inl ⟨rfl, hk h⟩)
  · exact mem_setPool.mpr (.inr ⟨hq, h⟩)

theorem mem_members_setPool : m ∈ ((s.setPool p pool).pools q).members ↔
    (q = p ∧ m ∈ pool.members) ∨ (q ≠ p ∧ m ∈ (s.pools q).members) := by
  by_cases hq : q = p
  · subst hq
    simp [setPool]
  · simp [setPool, hq]

theorem mem_members_setPool_concat {member : PoolMember}
    (h : pool.members = (s.pools p).members ++ [member]) :
    m ∈ ((s.setPool p pool).pools q).members ↔
      m ∈ (s.pools q).members ∨ (q = p ∧ m = member) := by
  rw [mem_members_setPool, h]
  by_cases hq : q = p
  · subst hq
    simp
  · simp [hq]

/-- What the new pool has in common with the old one is the same for all pools. -/
theorem pools_setPool_congr {α : Type} (f : ActiveClientPool → α) (h : f pool = f (s.pools p))
    (q : PoolId) : f ((s.setPool p pool).pools q) = f (s.pools q) := by
  by_cases hq : q = p
  · subst hq
    simpa [setPool] using h
  · simp [setPool, Function.update_of_ne hq]

theorem mem_of_mem_removeMember {k : Nat}
    (h : c ∈ ((s.setPool p ((s.pools p).removeMember k).2).pools q).connections) :
    c ∈ (s.pools q).connections := by
  rcases mem_setPool.mp h with ⟨rfl, hin⟩ | ⟨-, hin⟩
  · obtain ⟨m, hm, rfl⟩ := ActiveClientPool.mem_connections.mp hin
    have hold := (ActiveClientPool.mem_removeMember.mp hm).1
    exact ActiveClientPool.mem_connections.mpr ⟨m, hold, rfl⟩
  · exact hin

@[simp] theorem close_closed {cs : List ServerTunnel} :
    (s.close cs).closed c = true ↔ s.closed c = true ∨ c ∈ cs := by
  simp [close]

theorem registers_setRegister {t t' : Nat} {task task' : RegisterTask} :
    (s.setRegister t task).registers t' = some task' ↔
      (t' = t ∧ task = task') ∨ (t' ≠ t ∧ s.registers t' = some task') := by
  by_cases ht : t' = t
  · subst ht
    simp [setRegister]
  · simp [setRegister, ht]

theorem watchers_spawnWatcher {w : Nat} {watcher watcher' : CloseWatcher} :
    (s.spawnWatcher watcher).watchers w = some watcher' ↔
      (w = s.nextWatcher ∧ watcher = watcher') ∨
        (w ≠ s.nextWatcher ∧ s.watchers w = some watcher') := by
  by_cases hw : w = s.nextWatcher
  · subst hw
    simp [spawnWatcher]
  · simp [spawnWatcher, hw]

end

/-! ## Moves of a replacement -/

/-- The moves of the call of `replace_authorization`. -/
inductive ReplaceStep (s : TunnelRegistry) : TunnelRegistry → Prop where
  | lock :
      s.replace = some (.awaitPools previous prepared) →
      s.poolsLock.write .replace = some lock →
      ReplaceStep s { s with poolsLock := lock, replace := some (.locked previous prepared) }
  | commit :
      s.replace = some (.locked previous next) →
      ManagedSnapshot.removedIdentities previous.snapshot next.snapshot ≠ [] →
      ReplaceStep s { s with
        authorization := next
        replace := some (.closing previous next
          (ManagedSnapshot.removedIdentities previous.snapshot next.snapshot) s.tunnelPools 0) }
  | commitKeeping :
      s.replace = some (.locked previous next) →
      ManagedSnapshot.removedIdentities previous.snapshot next.snapshot = [] →
      ReplaceStep s { s with
        authorization := next
        replace := some (.taking previous next s.tunnelPools [] 0) }
  | closePool :
      s.replace = some (.closing previous next removed (p :: todo) n) →
      ReplaceStep s { s.close ((s.pools p).connectionsForIdentities removed) with
        replace := some (.closing previous next removed todo
          (n + ((s.pools p).connectionsForIdentities removed).length)) }
  | closed :
      s.replace = some (.closing previous next removed [] n) →
      ReplaceStep s { s with replace := some (.taking previous next s.tunnelPools [] n) }
  | takePool :
      s.replace = some (.taking previous next (p :: todo) taken n) →
      ReplaceStep s { s.setPool p (s.pools p).takeMembers.2 with
        replace := some (.taking previous next todo (taken ++ (s.pools p).takeMembers.1) n) }
  | rebuild :
      s.replace = some (.taking previous next [] taken n) →
      ReplaceStep s { s with
        tunnelPools := (s.rebuilt previous next).1
        nextPool := (s.rebuilt previous next).2
        replace := some (.adopting next taken n) }
  | revoke :
      s.replace = some (.adopting next (member :: todo) n) →
      next.snapshot.index member.clientIdentity = none →
      ReplaceStep s { s with
        releases := (member.connection, member.admissionPermit) :: s.releases
        replace := some (.adopting next todo n) }
  | discard :
      s.replace = some (.adopting next (member :: todo) n) →
      next.snapshot.index member.clientIdentity = some i →
      s.tunnelPools[i]? = none →
      ReplaceStep s { s with
        admission := s.admission.release member.admissionPermit
        replace := some (.adopting next todo n) }
  | adopt :
      s.replace = some (.adopting next (member :: todo) n) →
      next.snapshot.index member.clientIdentity = some i →
      s.tunnelPools[i]? = some p →
      ReplaceStep s { ({ s with
          watchers := Function.update s.watchers member.closeWatcher none }.setPool p
            ((s.pools p).beginAdopt member s.nextWatcher).2).spawnWatcher
              ⟨member.connection, p, (s.pools p).nextMemberId⟩ with
        replace := some
          (.adoptPush next p ((s.pools p).beginAdopt member s.nextWatcher).1 todo n) }
  | push :
      s.replace = some (.adoptPush next p member todo n) →
      ReplaceStep s { s.setPool p ((s.pools p).push member) with
        replace := some (.adopting next todo n) }
  | unlock :
      s.replace = some (.adopting next [] n) →
      ReplaceStep s { s with
        poolsLock := s.poolsLock.releaseWrite
        replace := some (.resetting next n) }
  | reset :
      s.replace = some (.resetting next n) →
      ReplaceStep s { s with
        visitorWork := { s.visitorWork with
          work := resetStreamsMatching next.snapshot s.visitorWork.work }
        resets := s.resets ++ (s.visitorWork.work.filter (resets? next.snapshot)).map
          fun stream => stream.streamId
        replace := some (.finishing
          ⟨n, ((s.visitorWork.work.filter (resets? next.snapshot)).map
            fun stream => stream.streamId).length⟩) }
  | finish :
      s.replace = some (.finishing dispatch) →
      ReplaceStep s { s with
        readiness := if s.firstApplyCompleted then s.readiness else s.readiness.map fun _ => true
        firstApplyCompleted := true
        replace := none
        dispatches := s.dispatches ++ [dispatch] }

theorem replaceStep_of_pollReplace {s s' : TunnelRegistry} (h : s.pollReplace = some s') :
    ReplaceStep s s' := by
  unfold pollReplace at h
  split at h
  · cases h
  · next hr =>
    obtain ⟨lock, hl, rfl⟩ := Option.map_eq_some_iff.mp h
    exact .lock hr hl
  · next previous next hr =>
    dsimp only at h
    split at h
    · next hn =>
      cases h
      exact .commitKeeping hr hn
    · next hne =>
      cases h
      exact .commit hr hne
  · next hr => cases h; exact .closePool hr
  · next hr => cases h; exact .closed hr
  · next hr => cases h; exact .takePool hr
  · next hr => cases h; exact .rebuild hr
  · next hr =>
    split at h
    · next hi => cases h; exact .revoke hr hi
    · next hi =>
      split at h
      · next hp => cases h; exact .discard hr hi hp
      · next hp => cases h; exact .adopt hr hi hp
  · next hr => cases h; exact .push hr
  · next hr => cases h; exact .unlock hr
  · next hr => cases h; exact .reset hr
  · next hr => cases h; exact .finish hr

/-- The snapshot the call installs. -/
def Installs (s : TunnelRegistry) (next : ManagedSnapshot) : Prop :=
  match s.replace with
  | some (.awaitPools _ prepared) => prepared.snapshot = next
  | some (.locked _ prepared) => prepared.snapshot = next
  | _ => s.authorization.snapshot = next

theorem Installs.replaceStep {s s' : TunnelRegistry} {next : ManagedSnapshot} (h : s.Installs next)
    (hs : ReplaceStep s s') : s'.Installs next := by
  unfold Installs at h
  cases hs with
  | lock hr | commit hr | commitKeeping hr | closePool hr | closed hr | takePool hr
  | rebuild hr | revoke hr | discard hr | adopt hr | push hr | unlock hr | reset hr
  | finish hr =>
    rw [hr] at h
    exact h

/-! ## Frames

What each task writes.  Every other field of the state is as it was. -/

section Frames

variable {s s' : TunnelRegistry} {t : Nat}

theorem frame_startRegister (s : TunnelRegistry) (c : ClientIdentity) :
    ∃ next closed registers,
      s.startRegister c =
        { s with nextConnection := next, closed := closed, registers := registers } := by
  unfold startRegister
  dsimp only
  split <;> exact ⟨_, _, _, rfl⟩

theorem frame_pollRegister (h : s.pollRegister t = some s') :
    ∃ lock pools admission counter closed registers watchers next,
      s.nextCounter ≤ counter ∧
      s' = { s with
        poolsLock := lock, pools := pools, admission := admission, nextCounter := counter
        closed := closed, registers := registers, watchers := watchers, nextWatcher := next } := by
  unfold pollRegister at h
  split at h
  · obtain ⟨lock, -, rfl⟩ := Option.map_eq_some_iff.mp h
    exact ⟨_, _, _, _, _, _, _, _, le_rfl, rfl⟩
  · dsimp only at h
    split at h
    · cases h
      exact ⟨_, _, _, _, _, _, _, _, le_rfl, rfl⟩
    · split at h <;> cases h <;> exact ⟨_, _, _, _, _, _, _, _, le_rfl, rfl⟩
  · cases h
    unfold tryRegister
    split
    · exact ⟨_, _, _, _, _, _, _, _, Nat.le_succ _, rfl⟩
    · exact ⟨_, _, _, _, _, _, _, _, le_rfl, rfl⟩
  · cases h
  · cases h

/-- The registry when the close watcher has removed its member. -/
abbrev removed (s : TunnelRegistry) (w : Nat) (watcher : CloseWatcher) : TunnelRegistry :=
  { s with
    watchers := Function.update s.watchers w none
    admission := s.admission.releaseAll
      (((s.pools watcher.pool).removeMember watcher.memberId).1.map
        fun m : PoolMember => m.admissionPermit) }.setPool watcher.pool
          ((s.pools watcher.pool).removeMember watcher.memberId).2

theorem runWatcher_eq_some {w : Nat} (h : s.runWatcher w = some s') :
    ∃ watcher, s.watchers w = some watcher ∧ s.closed watcher.connection = true ∧
      s' = s.removed w watcher := by
  unfold runWatcher at h
  split at h
  · cases h
  · next watcher hw =>
    split at h
    · next hc =>
      cases h
      exact ⟨watcher, hw, hc, rfl⟩
    · cases h

theorem frame_runWatcher {w : Nat} (h : s.runWatcher w = some s') :
    ∃ watchers admission pools,
      s' = { s with watchers := watchers, admission := admission, pools := pools } := by
  obtain ⟨watcher, -, -, rfl⟩ := runWatcher_eq_some h
  exact ⟨_, _, _, rfl⟩

theorem frame_startVisitor (s : TunnelRegistry) (h : PublicHostname) :
    ∃ work visitors next,
      s.startVisitor h =
        { s with visitorWork := work, visitors := visitors, nextVisitor := next } := by
  unfold startVisitor
  dsimp only
  split <;> exact ⟨_, _, _, rfl⟩

theorem frame_pollVisitor (h : s.pollVisitor t = some s') :
    ∃ lock pools work next streams visitors,
      (∀ p, (pools p).members = (s.pools p).members ∧
        (pools p).nextMemberId = (s.pools p).nextMemberId) ∧
      s' = { s with
        poolsLock := lock, pools := pools, visitorWork := work, nextStreamId := next
        activeStreams := streams, visitors := visitors } := by
  have hk : ∀ p, (s.pools p).members = (s.pools p).members ∧
      (s.pools p).nextMemberId = (s.pools p).nextMemberId := fun _ => ⟨rfl, rfl⟩
  unfold pollVisitor at h
  split at h
  · obtain ⟨lock, -, rfl⟩ := Option.map_eq_some_iff.mp h
    exact ⟨_, _, _, _, _, _, hk, rfl⟩
  · dsimp only at h
    split at h
    · cases h
      exact ⟨_, _, _, _, _, _, hk, rfl⟩
    · split at h <;> cases h <;> exact ⟨_, _, _, _, _, _, hk, rfl⟩
  · -- `select_connection` turns the offset of its pool.
    dsimp only at h
    split at h <;> cases h <;>
      exact ⟨_, _, _, _, _, _, fun q => ⟨pools_setPool_congr ActiveClientPool.members (by simp) q,
        pools_setPool_congr ActiveClientPool.nextMemberId (by simp) q⟩, rfl⟩
  · cases h
    unfold registerActiveVisitorWork
    split <;> exact ⟨_, _, _, _, _, _, hk, rfl⟩
  · split at h <;> cases h <;> exact ⟨_, _, _, _, _, _, hk, rfl⟩
  · cases h
    exact ⟨_, _, _, _, _, _, hk, rfl⟩
  · cases h
  · cases h

theorem frame_dropVisitor (h : s.dropVisitor t = some s') :
    ∃ work streams visitors,
      s' = { s with visitorWork := work, activeStreams := streams, visitors := visitors } := by
  unfold dropVisitor at h
  split at h <;> cases h <;> exact ⟨_, _, _, rfl⟩

theorem frame_pollCall (h : s.pollCall t = some s') :
    ∃ lock closed calls, (∀ c, s.closed c = true → closed c = true) ∧
      s' = { s with poolsLock := lock, closed := closed, calls := calls } := by
  unfold pollCall at h
  split at h
  · obtain ⟨lock, -, rfl⟩ := Option.map_eq_some_iff.mp h
    exact ⟨_, _, _, fun _ hc => hc, rfl⟩
  · cases h
    exact ⟨_, _, _, fun _ hc => hc, rfl⟩
  · cases h
    exact ⟨_, _, _, fun c hc => close_closed.mpr (.inl hc), rfl⟩
  all_goals cases h
  all_goals exact ⟨_, _, _, fun _ hc => hc, rfl⟩

theorem frame_pollShutdown {c : ServerTunnel} (h : s.pollShutdown t c = some s') :
    ∃ called refusing closed calls, (∀ c, s.closed c = true → closed c = true) ∧
      s' = { s with
        shutdownCalled := called, refusing := refusing, closed := closed, calls := calls } := by
  unfold pollShutdown at h
  split at h
  · split at h
    · cases h
      exact ⟨_, _, _, _, fun _ hc => hc, rfl⟩
    · split at h <;> cases h
      exact ⟨_, _, _, _, fun c hc => close_closed.mpr (.inl hc), rfl⟩
  · cases h

end Frames

/-! ## Steps that leave the pools alone -/

/-- The pool a snapshot and a vector give to an identity. -/
def poolFor (snapshot : ManagedSnapshot) (pools : List PoolId) (c : ClientIdentity) :
    Option PoolId :=
  (snapshot.index c).bind fun i => pools[i]?

theorem mem_of_poolFor {snapshot : ManagedSnapshot} {pools : List PoolId} {c : ClientIdentity}
    {p : PoolId} (h : poolFor snapshot pools c = some p) : p ∈ pools ∧ c ∈ snapshot.trusted := by
  obtain ⟨i, hi, hp⟩ := Option.bind_eq_some_iff.mp h
  exact ⟨List.mem_of_getElem? hp, ManagedSnapshot.mem_trusted.mpr ⟨i, hi⟩⟩

/-- What every action other than a registration's insertion, a close watcher, the
release of a revoked member's permit and the replacement leaves as it is.
Connections may close, a pool may turn its round-robin offset, and calls of
`register` may start, move on, or end with a closed connection. -/
structure SamePools (s s' : TunnelRegistry) : Prop where
  authorization : s'.authorization = s.authorization
  nextAlloc : s'.nextAlloc = s.nextAlloc
  tunnelPools : s'.tunnelPools = s.tunnelPools
  nextPool : s'.nextPool = s.nextPool
  members : ∀ p, (s'.pools p).members = (s.pools p).members
  nextMemberId : ∀ p, (s'.pools p).nextMemberId = (s.pools p).nextMemberId
  replace : s'.replace = s.replace
  watchers : s'.watchers = s.watchers
  nextWatcher : s'.nextWatcher = s.nextWatcher
  admission : s'.admission = s.admission
  releases : s'.releases = s.releases
  closed : ∀ c, s.closed c = true → s'.closed c = true
  nextConnection : s.nextConnection ≤ s'.nextConnection
  returned : ∀ t c o, s'.registers t = some (.returned c o) →
    s.registers t = some (.returned c o) ∨ (o ≠ .registered ∧ s'.closed c = true)
  kept : ∀ t c o, t ≠ s.nextConnection → s.registers t = some (.returned c o) →
    s'.registers t = some (.returned c o)
  started : ∀ t task, s'.registers t = some task →
    (∃ old, s.registers t = some old ∧ old.connection = task.connection) ∨
      (task.connection.id = t ∧ t < s'.nextConnection)
  inserts : ∀ t c p, s'.registers t = some (.tryRegister c p) →
    s.registers t = some (.tryRegister c p) ∨
      poolFor s.authorization.snapshot s.tunnelPools c.clientIdentity = some p

/-- The fields `SamePools` is about. -/
def poolsView (s : TunnelRegistry) :=
  (s.authorization, s.nextAlloc, s.tunnelPools, s.nextPool, s.pools, s.replace, s.watchers,
    s.nextWatcher, s.admission, s.releases, s.closed, s.nextConnection, s.registers)

section

variable {s s' : TunnelRegistry} {t : Nat} {c : ServerTunnel}

theorem SamePools.of_view (h : s'.poolsView = s.poolsView) : SamePools s s' := by
  simp only [poolsView, Prod.mk.injEq] at h
  obtain ⟨hau, ha, htp, hnp, hp, hrp, hw, hnw, had, hre, hc, hn, hr⟩ := h
  exact
    { authorization := hau
      nextAlloc := ha
      tunnelPools := htp
      nextPool := hnp
      members := fun p => by rw [hp]
      nextMemberId := fun p => by rw [hp]
      replace := hrp
      watchers := hw
      nextWatcher := hnw
      admission := had
      releases := hre
      closed := fun c h => by rw [hc]; exact h
      nextConnection := Nat.le_of_eq hn.symm
      returned := fun t c o h => .inl (hr ▸ h)
      kept := fun t c o _ h => hr ▸ h
      started := fun t task h => .inl ⟨task, hr ▸ h, rfl⟩
      inserts := fun t c p h => .inl (hr ▸ h) }

theorem SamePools.refl (s : TunnelRegistry) : SamePools s s := .of_view rfl

theorem SamePools.close (h : SamePools s s') (cs : List ServerTunnel) : SamePools s (s'.close cs) :=
  { h with
    closed := fun c hc => close_closed.mpr (.inl (h.closed c hc))
    returned := fun t c o hr =>
      (h.returned t c o hr).imp_right fun ⟨ho, hc⟩ => ⟨ho, close_closed.mpr (.inl hc)⟩ }

theorem samePools_close (s : TunnelRegistry) (cs : List ServerTunnel) :
    SamePools s (s.close cs) :=
  (SamePools.refl s).close cs

theorem SamePools.open_of_open (h : SamePools s s')
    (hc : s'.closed c = false) : s.closed c = false := by
  cases hb : s.closed c with
  | false => rfl
  | true => rw [h.closed c hb] at hc; cases hc

/-- A call of `register` starts, moves on, or ends with its connection closed. -/
theorem SamePools.setRegister (h : SamePools s s') {task : RegisterTask}
    (hold : (∃ old, s.registers t = some old ∧ old.connection = task.connection ∧
        ∀ c o, old ≠ .returned c o) ∨
      (t = s.nextConnection ∧ task.connection.id = t ∧ t < s'.nextConnection))
    (hre : ∀ c o, task = .returned c o → o ≠ .registered ∧ s'.closed c = true)
    (hi : ∀ c p, task = .tryRegister c p →
      poolFor s.authorization.snapshot s.tunnelPools c.clientIdentity = some p) :
    SamePools s (s'.setRegister t task) := by
  refine { h with returned := ?_, kept := ?_, started := ?_, inserts := ?_ }
  · intro t' c o hr
    rcases registers_setRegister.mp hr with ⟨-, hc⟩ | ⟨-, hr⟩
    · exact .inr (hre c o hc)
    · exact h.returned t' c o hr
  · intro t' c o hne hr
    refine registers_setRegister.mpr (.inr ⟨?_, h.kept t' c o hne hr⟩)
    rintro rfl
    rcases hold with ⟨old, hr', -, hno⟩ | ⟨hn, -, -⟩
    · exact hno c o (Option.some.inj (hr'.symm.trans hr))
    · exact hne hn
  · intro t' task' hr
    rcases registers_setRegister.mp hr with ⟨rfl, rfl⟩ | ⟨-, hr⟩
    · rcases hold with ⟨old, hr', hc, -⟩ | ⟨-, hid, hlt⟩
      · exact .inl ⟨old, hr', hc⟩
      · exact .inr ⟨hid, hlt⟩
    · exact h.started t' task' hr
  · intro t' c p hr
    rcases registers_setRegister.mp hr with ⟨-, hc⟩ | ⟨-, hr⟩
    · exact .inr (hi c p hc)
    · exact h.inserts t' c p hr

theorem SamePools.refuse (h : SamePools s s') {o : TunnelRegistrationOutcome} (ho : o ≠ .registered)
    (hold : (∃ old, s.registers t = some old ∧ old.connection = c ∧
        ∀ c o, old ≠ .returned c o) ∨
      (t = s.nextConnection ∧ c.id = t ∧ t < s'.nextConnection)) :
    SamePools s ((s'.close [c]).setRegister t (.returned c o)) := by
  refine (h.close [c]).setRegister hold ?_ ?_
  · intro c' o' he
    cases he
    exact ⟨ho, close_closed.mpr (.inr (List.mem_singleton_self c))⟩
  · intro c' p he
    cases he

theorem samePools_startRegister (s : TunnelRegistry) (c : ClientIdentity) :
    SamePools s (s.startRegister c) := by
  have hn : SamePools s { s with nextConnection := s.nextConnection + 1 } :=
    { SamePools.refl s with
      nextConnection := Nat.le_succ _
      started := fun t task h => .inl ⟨task, h, rfl⟩ }
  unfold startRegister
  dsimp only
  split
  · refine hn.setRegister (.inr ⟨rfl, rfl, Nat.lt_succ_self _⟩) ?_ ?_
    · intro c' o' he
      cases he
    · intro c' p he
      cases he
  · exact hn.refuse (by simp) (.inr ⟨rfl, rfl, Nat.lt_succ_self _⟩)

theorem samePools_startVisitor (s : TunnelRegistry) (h : PublicHostname) :
    SamePools s (s.startVisitor h) := by
  unfold startVisitor
  dsimp only
  split <;> exact .of_view rfl

theorem samePools_pollVisitor (h : s.pollVisitor t = some s') : SamePools s s' := by
  obtain ⟨_, _, _, _, _, _, hp, rfl⟩ := frame_pollVisitor h
  exact { SamePools.refl s with members := fun p => (hp p).1, nextMemberId := fun p => (hp p).2 }

theorem samePools_dropVisitor (h : s.dropVisitor t = some s') : SamePools s s' := by
  obtain ⟨_, _, _, rfl⟩ := frame_dropVisitor h
  exact .of_view rfl

theorem samePools_pollCall (h : s.pollCall t = some s') : SamePools s s' := by
  obtain ⟨_, _, _, hc, rfl⟩ := frame_pollCall h
  exact { SamePools.refl s with closed := hc, returned := fun _ _ _ hr => .inl hr }

theorem samePools_pollShutdown (h : s.pollShutdown t c = some s') : SamePools s s' := by
  obtain ⟨_, _, _, _, hc, rfl⟩ := frame_pollShutdown h
  exact { SamePools.refl s with closed := hc, returned := fun _ _ _ hr => .inl hr }

end

/-! ## Steps sorted by what they do to the pools -/

/-- `try_register` has a member for the connection. -/
abbrev Inserts (s : TunnelRegistry) (p : PoolId) (c : ServerTunnel) (member : PoolMember)
    (pool : ActiveClientPool) (admission : TunnelConnectionAdmission) : Prop :=
  (s.pools p).tryRegister s.admission c s.nextWatcher s.nextCounter = .ok (member, pool, admission)

/-- The registry when the call has inserted it. -/
abbrev inserted (s : TunnelRegistry) (t : Nat) (p : PoolId) (member : PoolMember)
    (pool : ActiveClientPool) (admission : TunnelConnectionAdmission) (c : ServerTunnel) :
    TunnelRegistry :=
  ({ s with admission, nextCounter := s.nextCounter + 1 }.setPool p pool).spawnWatcher
    ⟨c, p, member.memberId⟩ |>.setRegister t (.returned c .registered)

/-- What an action does to the pools and to the snapshot. -/
inductive PoolsStep (s : TunnelRegistry) : Action → TunnelRegistry → Prop where
  | same : SamePools s s' → PoolsStep s a s'
  /-- `try_register` inserts a member. -/
  | insert :
      s.registers t = some (.tryRegister c p) → s.Inserts p c member pool admission' →
      PoolsStep s (.pollRegister t) (s.inserted t p member pool admission' c)
  /-- A close watcher removes its member. -/
  | remove :
      s.watchers w = some watcher → s.closed watcher.connection = true →
      PoolsStep s (.runWatcher w) (s.removed w watcher)
  /-- A revoked member's permit is released after its connection has closed. -/
  | release :
      (c, permit) ∈ s.releases → s.closed c = true →
      PoolsStep s (.runRelease c permit)
        { s with
          releases := s.releases.erase (c, permit)
          admission := s.admission.release permit }
  /-- `replace_authorization` is called with a valid input. -/
  | start :
      s.replace = none →
      PoolsStep s (.replaceAuthorization serverHostname tunnels) (s.beginReplace snapshot)
  | replace : ReplaceStep s s' → PoolsStep s .pollReplace s'

variable {s s' : TunnelRegistry}
variable {t w : Nat} {c : ServerTunnel} {serverHostname : ServerHostname}
  {tunnels : List ServerTunnelConfig}

theorem poolsStep_pollRegister (h : s.pollRegister t = some s') :
    PoolsStep s (.pollRegister t) s' := by
  unfold pollRegister at h
  split at h
  · next c hr =>
    obtain ⟨lock, -, rfl⟩ := Option.map_eq_some_iff.mp h
    have hl : SamePools s { s with poolsLock := lock } := .of_view rfl
    refine .same (hl.setRegister (.inl ⟨_, hr, rfl, by simp⟩) ?_ ?_)
    · intro c' o' he
      cases he
    · intro c' p he
      cases he
  · next c hr =>
    have hl : SamePools s { s with
        poolsLock := s.poolsLock.releaseRead (.register t) } := .of_view rfl
    dsimp only at h
    split at h
    · cases h
      exact .same (hl.refuse (by simp) (.inl ⟨_, hr, rfl, by simp⟩))
    · next i hi =>
      split at h
      · cases h
        exact .same (hl.refuse (by simp) (.inl ⟨_, hr, rfl, by simp⟩))
      · next p hp =>
        cases h
        refine .same (hl.setRegister (.inl ⟨_, hr, rfl, by simp⟩) ?_ ?_)
        · intro c' o' he
          cases he
        · intro c' p' he
          cases he
          exact Option.bind_eq_some_iff.mpr ⟨_, hi, hp⟩
  · next c p hr =>
    cases h
    unfold tryRegister
    split
    · next hok => exact .insert hr hok
    · exact .same ((SamePools.refl s).refuse (by simp) (.inl ⟨_, hr, rfl, by simp⟩))
  · cases h
  · cases h

theorem poolsStep_runRelease {permit : TunnelConnectionPermit}
    (h : s.runRelease c permit = some s') : PoolsStep s (.runRelease c permit) s' := by
  unfold runRelease at h
  split at h
  · next hc =>
    cases h
    exact .release hc.1 hc.2
  · cases h

theorem poolsStep_runWatcher (h : s.runWatcher w = some s') : PoolsStep s (.runWatcher w) s' := by
  obtain ⟨watcher, hw, hc, rfl⟩ := runWatcher_eq_some h
  exact .remove hw hc

theorem startReplace_eq_some (h : s.startReplace serverHostname tunnels = some s') :
    s.replace = none ∧ (s' = s ∨ ∃ snapshot, s' = s.beginReplace snapshot) := by
  unfold startReplace at h
  split at h
  · cases h
  · next hr =>
    split at h
    · cases h
      exact ⟨hr, .inl rfl⟩
    · next snapshot _ =>
      cases h
      exact ⟨hr, .inr ⟨snapshot, rfl⟩⟩

theorem poolsStep_startReplace (h : s.startReplace serverHostname tunnels = some s') :
    PoolsStep s (.replaceAuthorization serverHostname tunnels) s' := by
  obtain ⟨hr, rfl | ⟨snapshot, rfl⟩⟩ := startReplace_eq_some h
  · exact .same (.of_view rfl)
  · exact .start hr

theorem poolsStep_of_step {a : Action} (h : system.step s a = some s') : PoolsStep s a s' := by
  cases a with
  | register c =>
    cases h
    exact .same (samePools_startRegister s c)
  | pollRegister t => exact poolsStep_pollRegister h
  | replaceAuthorization serverHostname tunnels => exact poolsStep_startReplace h
  | pollReplace => exact .replace (replaceStep_of_pollReplace h)
  | runWatcher w => exact poolsStep_runWatcher h
  | runRelease c permit => exact poolsStep_runRelease h
  | visitor host =>
    cases h
    exact .same (samePools_startVisitor s host)
  | pollVisitor t => exact .same (samePools_pollVisitor h)
  | dropVisitor t => exact .same (samePools_dropVisitor h)
  | setReadiness =>
    cases h
    exact .same (.of_view rfl)
  | stopAcceptingNewWork =>
    cases h
    exact .same (.of_view rfl)
  | call kind =>
    cases h
    exact .same (.of_view rfl)
  | pollCall t => exact .same (samePools_pollCall h)
  | pollShutdown t c => exact .same (samePools_pollShutdown h)
  | connectionEnds c =>
    cases h
    exact .same (samePools_close s [c])
  | refuses c =>
    cases h
    exact .same (.of_view rfl)

end TunnelRegistry

end Runewarp.Server
