import Runewarp.Server.Conservation
import Runewarp.Server.Shutdown

/-!
# Close watchers

Every member has a close watcher: a task that waits for the connection to close and
then removes the member, which drops its permit.  So once the watchers of closed
connections have run, no pool should hold a closed connection and no closed
connection a permit.

`try_register` spawns the watcher under the guard it pushes the member with.
`adopt_member` spawns it first and asks for the guard afterwards.  If the connection
has closed by then, the watcher may run in between, when there is nothing to remove
yet; the member is pushed afterwards and stays (`adopted_after_watcher`).  In a run
in which no watcher overtakes the push of its member, every member has a watcher that
has not run, and the property holds.
-/

namespace Runewarp.Server

namespace TunnelRegistry

/-! ## The property -/

/-- The tasks that wait for a connection to close have run if it has closed. -/
def WatchersDone (s : TunnelRegistry) : Prop :=
  (∀ w < s.nextWatcher, (s.watchers w).all (fun watcher => !s.closed watcher.connection) = true) ∧
    ∀ x ∈ s.releases, s.closed x.1 = false

instance (s : TunnelRegistry) : Decidable s.WatchersDone := inferInstanceAs (Decidable (_ ∧ _))

/-- Closed connections have left the pools and given back their permits. -/
structure ClosedGone (s : TunnelRegistry) : Prop where
  members : ∀ p, ∀ m ∈ (s.pools p).members, s.closed m.connection = false
  /-- A permit that has not been released is held for an open connection. -/
  permits : ∀ permit ∈ s.admission.live,
    ∃ k, ∃ x ∈ s.held k, x.2 = permit ∧ s.closed x.1 = false

/-- Whether a step runs a close watcher whose member is still to be pushed. -/
def overtakesPush (s : TunnelRegistry) : Action → Bool
  | .runWatcher w =>
    match pendingPush s.replace with
    | some (_, m) => decide (m.closeWatcher = w)
    | none => false
  | _ => false

/-- The condition on a step: no close watcher overtakes the push of its member. -/
def PushesFirst (s : TunnelRegistry) (a : Action) : Prop := s.overtakesPush a = false

instance (s : TunnelRegistry) (a : Action) : Decidable (s.PushesFirst a) :=
  inferInstanceAs (Decidable (_ = _))

/-! ## Every member is watched -/

/-- Close watcher `w` was spawned for connection `c`. -/
def SpawnedFor (s : TunnelRegistry) (owner : Nat → ServerTunnel) (w : Nat) (c : ServerTunnel) :
    Prop :=
  w < s.nextWatcher ∧ owner w = c

/-- The watcher of a member waits to remove it. -/
def Watches (s : TunnelRegistry) (p : PoolId) (m : PoolMember) : Prop :=
  s.watchers m.closeWatcher = some ⟨m.connection, p, m.memberId⟩

/-- Members and what a replacement holds carry a watcher spawned for their connection.
That of a member, and of one about to be pushed, has not run. -/
structure Watched (s : TunnelRegistry) (owner : Nat → ServerTunnel) : Prop where
  member : ∀ p, ∀ m ∈ (s.pools p).members,
    s.SpawnedFor owner m.closeWatcher m.connection ∧ s.Watches p m
  detached : ∀ m ∈ detached s.replace, s.SpawnedFor owner m.closeWatcher m.connection
  pushing : ∀ p m, pendingPush s.replace = some (p, m) → s.Watches p m
  spawned : ∀ w watcher, s.watchers w = some watcher → w < s.nextWatcher

section Watched

variable {s s' : TunnelRegistry} {owner : Nat → ServerTunnel} {a : Action}

/-- The owners after a watcher was spawned for `c`. -/
def spawnFor (s : TunnelRegistry) (owner : Nat → ServerTunnel) (c : ServerTunnel) :
    Nat → ServerTunnel :=
  Function.update owner s.nextWatcher c

theorem SpawnedFor.spawn {w : Nat} {c d : ServerTunnel} (h : s.SpawnedFor owner w c)
    (hn : s'.nextWatcher = s.nextWatcher + 1) : s'.SpawnedFor (s.spawnFor owner d) w c := by
  obtain ⟨hlt, ho⟩ := h
  refine ⟨hn ▸ Nat.lt_succ_of_lt hlt, ?_⟩
  rw [spawnFor, Function.update_of_ne (Nat.ne_of_lt hlt)]
  exact ho

theorem spawnedFor_spawn {c : ServerTunnel} (hn : s'.nextWatcher = s.nextWatcher + 1) :
    s'.SpawnedFor (s.spawnFor owner c) s.nextWatcher c :=
  ⟨hn ▸ Nat.lt_succ_self _, Function.update_self ..⟩

/-- A step that spawns and stops no watcher keeps the watchers if what carries one
afterwards carried it before. -/
theorem Watched.of_subset (h : s.Watched owner) (hn : s'.nextWatcher = s.nextWatcher)
    (hwa : s'.watchers = s.watchers)
    (hme : ∀ p, ∀ m ∈ (s'.pools p).members,
      m ∈ (s.pools p).members ∨ pendingPush s.replace = some (p, m))
    (hd : ∀ m ∈ TunnelRegistry.detached s'.replace,
      m ∈ TunnelRegistry.detached s.replace ∨
        ∃ p, ∃ m' ∈ (s.pools p).members, m'.toTakenPoolMember = m)
    (hpu : ∀ p m, pendingPush s'.replace = some (p, m) →
      pendingPush s.replace = some (p, m)) :
    s'.Watched owner where
  member p m hm := by
    simp only [SpawnedFor, Watches, hn, hwa]
    rcases hme p m hm with hold | hps
    · exact h.member p m hold
    · refine ⟨h.detached m.toTakenPoolMember ?_, h.pushing p m hps⟩
      exact mem_detached_of_pendingPush hps
  detached m hm := by
    simp only [SpawnedFor, hn]
    rcases hd m hm with hold | ⟨p, m', hm', rfl⟩
    · exact h.detached m hold
    · exact (h.member p m' hm').1
  pushing p m hp := by
    simp only [Watches, hwa]
    exact h.pushing p m (hpu p m hp)
  spawned w watcher hw := by
    rw [hn]
    exact h.spawned w watcher (hwa ▸ hw)

/-- Two holders of one watcher hold one connection, and a connection is held once. -/
theorem Watched.closeWatcher_ne (h : s.Watched owner) (ha : s.Accounted) {p : PoolId}
    {m : PoolMember} (hm : m ∈ (s.pools p).members) {m' : TakenPoolMember}
    (hm' : m' ∈ TunnelRegistry.detached s.replace) : m.closeWatcher ≠ m'.closeWatcher := by
  intro he
  have hc : m.connection = m'.connection := by
    rw [← (h.member p m hm).1.2, ← (h.detached m' hm').2, he]
  have hat : holding m.toTakenPoolMember ∈ s.held (.pool p) := List.mem_map_of_mem hm
  have hat' : holding m' ∈ s.held .detached := List.mem_map_of_mem hm'
  cases ha.connections.site_eq hat hat' hc

theorem Watched.adopt {next : SnapshotRef} {member : TakenPoolMember}
    {todo : List TakenPoolMember} {n : Nat} {p : PoolId} (h : s.Watched owner)
    (ha : s.Accounted) (hr : s.replace = some (.adopting next (member :: todo) n)) :
    Watched { ({ s with
        watchers := Function.update s.watchers member.closeWatcher none }.setPool p
          ((s.pools p).beginAdopt member s.nextWatcher).2).spawnWatcher
            ⟨member.connection, p, (s.pools p).nextMemberId⟩ with
      replace := some
        (.adoptPush next p ((s.pools p).beginAdopt member s.nextWatcher).1 todo n) }
      (s.spawnFor owner member.connection) := by
  have hh : member ∈ TunnelRegistry.detached s.replace := by
    rw [hr]
    exact .head _
  refine ⟨?_, ?_, ?_, ?_⟩
  · intro q m hm
    have hold : m ∈ (s.pools q).members := by
      rcases mem_members_setPool.mp hm with ⟨rfl, hm⟩ | ⟨-, hm⟩ <;> exact hm
    obtain ⟨hs, hwa⟩ := h.member q m hold
    refine ⟨hs.spawn rfl, ?_⟩
    -- The abort hits the watcher of the detached member only.
    have hne : m.closeWatcher ≠ member.closeWatcher := h.closeWatcher_ne ha hold hh
    simp only [Watches, spawnWatcher, setPool]
    rw [Function.update_of_ne (Nat.ne_of_lt hs.1), Function.update_of_ne hne]
    exact hwa
  · intro m hm
    rcases List.mem_cons.mp hm with rfl | hm
    · exact spawnedFor_spawn rfl
    · refine (h.detached m ?_).spawn rfl
      rw [hr]
      exact .tail _ hm
  · intro q m hq
    cases hq
    simp only [Watches, spawnWatcher, setPool, ActiveClientPool.beginAdopt]
    rw [Function.update_self]
  · intro w watcher hw
    rcases watchers_spawnWatcher.mp hw with ⟨rfl, -⟩ | ⟨-, hw⟩
    · exact Nat.lt_succ_self _
    · simp only [setPool] at hw
      by_cases hold : w = member.closeWatcher
      · rw [hold, Function.update_self] at hw
        cases hw
      · rw [Function.update_of_ne hold] at hw
        exact Nat.lt_succ_of_lt (h.spawned w watcher hw)

theorem Watched.replaceStep (h : s.Watched owner) (ha : s.Accounted) (hs : ReplaceStep s s') :
    ∃ owner', s'.Watched owner' := by
  cases hs with
  | lock hr | commit hr | commitKeeping hr | closePool hr | closed hr | rebuild hr
  | unlock hr | reset hr | finish hr =>
    refine ⟨owner, h.of_subset rfl rfl (fun _ _ hm => .inl hm) ?_ ?_⟩
    · intro m hm
      rw [hr]
      exact .inl hm
    · intro p m hp
      cases hp
  | revoke hr | discard hr =>
    refine ⟨owner, h.of_subset rfl rfl (fun _ _ hm => .inl hm) ?_ ?_⟩
    · intro m hm
      rw [hr]
      exact .inl (.tail _ hm)
    · intro p m hp
      cases hp
  | @takePool previous next p todo taken n hr =>
    refine ⟨owner, h.of_subset rfl rfl ?_ ?_ ?_⟩
    · intro q m hm
      rcases mem_members_setPool.mp hm with ⟨-, hn⟩ | ⟨-, hm⟩
      · cases hn
      · exact .inl hm
    · intro m hm
      rcases List.mem_append.mp hm with hm | hm
      · rw [hr]
        exact .inl hm
      · obtain ⟨m', hm', he⟩ := List.mem_map.mp hm
        exact .inr ⟨p, m', hm', he⟩
    · intro q m hq
      cases hq
  | adopt hr => exact ⟨_, h.adopt ha hr⟩
  | @push next p member todo n hr =>
    refine ⟨owner, h.of_subset rfl rfl ?_ ?_ ?_⟩
    · intro q m hm
      refine ((mem_members_setPool_concat rfl).mp hm).imp_right ?_
      rintro ⟨rfl, rfl⟩
      rw [hr]
      rfl
    · intro m hm
      rw [hr]
      exact .inl (.tail _ hm)
    · intro q m hq
      cases hq

theorem Watched.insert {t : Nat} {c : ServerTunnel} {p : PoolId} {member : PoolMember}
    {pool : ActiveClientPool} {admission' : TunnelConnectionAdmission} (h : s.Watched owner)
    (hok : s.Inserts p c member pool admission') :
    Watched (s.inserted t p member pool admission' c) (s.spawnFor owner c) := by
  obtain ⟨rfl, -, hwa, -, -, hme, -⟩ := ActiveClientPool.tryRegister_eq_ok hok
  have hk : ∀ q, ∀ m ∈ (s.pools q).members, Function.update s.watchers s.nextWatcher
      (some ⟨member.connection, p, member.memberId⟩) m.closeWatcher =
        some ⟨m.connection, q, m.memberId⟩ := by
    intro q m hm
    obtain ⟨hs, hwt⟩ := h.member q m hm
    rw [Function.update_of_ne (Nat.ne_of_lt hs.1)]
    exact hwt
  refine ⟨?_, ?_, ?_, ?_⟩
  · intro q m hm
    rcases (mem_members_setPool_concat (s := s) hme).mp hm with hm | ⟨rfl, rfl⟩
    · exact ⟨(h.member q m hm).1.spawn rfl, hk q m hm⟩
    · refine ⟨?_, ?_⟩
      · rw [hwa]
        exact spawnedFor_spawn rfl
      · simp only [Watches, setRegister, spawnWatcher, setPool, hwa, Function.update_self]
  · intro m hm
    exact (h.detached m hm).spawn rfl
  · intro q m hq
    have hlt := h.spawned _ _ (h.pushing q m hq)
    simp only [Watches, setRegister, spawnWatcher, setPool]
    rw [Function.update_of_ne (Nat.ne_of_lt hlt)]
    exact h.pushing q m hq
  · intro w watcher hw
    rcases watchers_spawnWatcher.mp hw with ⟨rfl, -⟩ | ⟨-, hw⟩
    · exact Nat.lt_succ_self _
    · exact Nat.lt_succ_of_lt (h.spawned w watcher hw)

/-- A watcher that runs takes its member with it, unless that is still to be pushed. -/
theorem Watched.remove {w : Nat} {watcher : CloseWatcher}
    {admission' : TunnelConnectionAdmission} (h : s.Watched owner)
    (hw : s.watchers w = some watcher) (hok : s.PushesFirst (.runWatcher w)) :
    Watched ({ s with
      watchers := Function.update s.watchers w none
      admission := admission' }.setPool watcher.pool
        ((s.pools watcher.pool).removeMember watcher.memberId).2) owner := by
  refine ⟨?_, h.detached, ?_, ?_⟩
  · intro q m hm
    -- The member of watcher `w` is the one removed.
    have hme : m ∈ (s.pools q).members ∧ m.closeWatcher ≠ w := by
      have hwa : ∀ {q}, m ∈ (s.pools q).members → m.closeWatcher = w →
          watcher = ⟨m.connection, q, m.memberId⟩ := by
        intro q hin he
        have hwa := (h.member q m hin).2
        rwa [Watches, he, hw, Option.some.injEq] at hwa
      rcases mem_members_setPool.mp hm with ⟨rfl, hin⟩ | ⟨hq, hin⟩
      · obtain ⟨hin, hid⟩ := ActiveClientPool.mem_removeMember.mp hin
        exact ⟨hin, fun he => hid (congrArg CloseWatcher.memberId (hwa hin he)).symm⟩
      · exact ⟨hin, fun he => hq (congrArg CloseWatcher.pool (hwa hin he)).symm⟩
    obtain ⟨hs, hwa⟩ := h.member q m hme.1
    refine ⟨hs, ?_⟩
    simp only [Watches, setPool]
    rw [Function.update_of_ne hme.2]
    exact hwa
  · intro q m hq
    have hne : m.closeWatcher ≠ w := by
      intro he
      have ho : s.overtakesPush (.runWatcher w) = false := hok
      rw [overtakesPush, show pendingPush s.replace = some (q, m) from hq] at ho
      exact of_decide_eq_false ho he
    simp only [Watches, setPool]
    rw [Function.update_of_ne hne]
    exact h.pushing q m hq
  · intro w' watcher' hw'
    simp only [setPool] at hw' ⊢
    by_cases he : w' = w
    · rw [he, Function.update_self] at hw'
      cases hw'
    · rw [Function.update_of_ne he] at hw'
      exact h.spawned w' watcher' hw'

theorem Watched.step (h : s.Watched owner) (ha : s.Accounted) (hok : s.PushesFirst a)
    (hs : PoolsStep s a s') : ∃ owner', s'.Watched owner' := by
  cases hs with
  | same hsa =>
    refine ⟨owner, h.of_subset hsa.nextWatcher hsa.watchers ?_ ?_ ?_⟩
    · intro p m hm
      exact .inl (hsa.members p ▸ hm)
    · intro m hm
      exact .inl (hsa.replace ▸ hm)
    · intro p m hp
      exact hsa.replace ▸ hp
  | insert _ hre => exact ⟨_, h.insert hre⟩
  | remove hw => exact ⟨owner, h.remove hw hok⟩
  | release =>
    exact ⟨owner, h.of_subset rfl rfl (fun _ _ hm => .inl hm) (fun _ hm => .inl hm)
      fun _ _ hp => hp⟩
  | start hr =>
    refine ⟨owner, h.of_subset rfl rfl (fun _ _ hm => .inl hm) ?_ ?_⟩
    · intro m hm
      cases hm
    · intro p m hp
      cases hp
  | replace hrp => exact h.replaceStep ha hrp

end Watched

/-! ## Every permit is held -/

/-- A permit is live at most once, and is with a connection as long as it is. -/
structure Backed (s : TunnelRegistry) : Prop where
  nodup : s.admission.live.Nodup
  carried : ∀ permit ∈ s.admission.live, ∃ x, Carries s x ∧ x.2.2 = permit

section Backed

variable {s s' : TunnelRegistry} {a : Action}

/-- A step that changes no admission hands everything on. -/
theorem Backed.of_carries (h : s.Backed) (ha : s'.admission = s.admission)
    (hk : ∀ x, Carries s x → Carries s' x) : s'.Backed where
  nodup := ha ▸ h.nodup
  carried permit hp := by
    rw [ha] at hp
    obtain ⟨x, hx, hpx⟩ := h.carried permit hp
    exact ⟨x, hk x hx, hpx⟩

/-- A step that drops permits drops those it lets go of. -/
theorem Backed.dropped (h : s.Backed) (gone : List TunnelConnectionPermit)
    (ha : s'.admission = s.admission.releaseAll gone)
    (hk : ∀ x, Carries s x → Carries s' x ∨ x.2.2 ∈ gone) : s'.Backed where
  nodup := ha ▸ TunnelConnectionAdmission.nodup_live_releaseAll gone h.nodup
  carried permit hp := by
    rw [ha] at hp
    obtain ⟨x, hx, rfl⟩ := h.carried permit
      (TunnelConnectionAdmission.live_releaseAll_subset _ _ hp)
    rcases hk x hx with hke | hg
    · exact ⟨x, hke, rfl⟩
    · exact absurd hp (TunnelConnectionAdmission.notMem_live_releaseAll h.nodup hg)

theorem admission_replaceStep (hl : s.Layout) (hs : ReplaceStep s s') :
    s'.admission = s.admission := by
  cases hs with
  | discard hr hi hp => exact absurd hp (hl.getElem?_ne_none hr hi)
  | _ => rfl

theorem Backed.insert {t : Nat} {c : ServerTunnel} {p : PoolId} {member : PoolMember}
    {pool : ActiveClientPool} {admission' : TunnelConnectionAdmission} (h : s.Backed)
    (ha : s.Accounted) (hok : s.Inserts p c member pool admission') :
    Backed (s.inserted t p member pool admission' c) := by
  obtain ⟨-, -, -, -, hac, hm, -⟩ := ActiveClientPool.tryRegister_eq_ok hok
  obtain ⟨hl, -, hid, -⟩ := TunnelConnectionAdmission.tryAcquire_live hac
  refine ⟨?_, fun permit hp => ?_⟩
  · show admission'.live.Nodup
    rw [hl]
    refine List.nodup_cons.mpr ⟨fun hme => ?_, h.nodup⟩
    exact absurd (hid ▸ ha.issued _ hme) (Nat.lt_irrefl _)
  · replace hp : permit ∈ admission'.live := hp
    rw [hl] at hp
    rcases List.mem_cons.mp hp with rfl | hp
    · refine ⟨_, .member (m := member) (p := p) ?_ rfl, rfl⟩
      simp [setRegister, spawnWatcher, setPool, hm]
    · obtain ⟨x, hx, hpx⟩ := h.carried permit hp
      exact ⟨x, hx.insert hok, hpx⟩

theorem Backed.step (h : s.Backed) (hl : s.Layout) (ha : s.Accounted) (hs : PoolsStep s a s') :
    s'.Backed := by
  cases hs with
  | same hsa => exact h.of_carries hsa.admission fun x hx => hx.same hsa
  | insert _ hok => exact h.insert ha hok
  | remove =>
    refine h.dropped _ rfl fun x hx => hx.remove.imp_right ?_
    rintro ⟨m, hm, rfl⟩
    exact List.mem_map_of_mem hm
  | @release c permit _ _ =>
    refine h.dropped [permit] rfl fun x hx => hx.release.imp_right ?_
    intro he
    exact List.mem_singleton.mpr (congrArg Prod.snd he)
  | start hr => exact h.of_carries rfl fun x hx => hx.start hr
  | replace hre =>
    exact h.of_carries (admission_replaceStep hl hre) fun x hx => hx.replaceStep hl hre

end Backed

/-! ## Runs -/

/-- What a run in which no watcher overtakes the push of its member keeps. -/
structure WatcherInv (s : TunnelRegistry) : Prop where
  core : s.CoreInv
  backed : s.Backed
  watched : ∃ owner, s.Watched owner

theorem watcherInv_of_steps {snapshot : ManagedSnapshot} {limits : ServerAdmissionLimits}
    {s : TunnelRegistry}
    (hr : system.Steps PushesFirst (fromAuthorizationWithAdmission snapshot limits) s) :
    s.WatcherInv := by
  refine hr.invariant ?_ ⟨coreInv_fromAuthorizationWithAdmission snapshot limits,
    ⟨List.nodup_nil, ?_⟩, fun _ => ⟨0, ⟨List.replicate 32 0, rfl⟩⟩, ?_, ?_, ?_, ?_⟩
  · rintro s a s' ⟨hc, hb, owner, hwa⟩ hok hst
    have hs := poolsStep_of_step hst
    exact ⟨hc.step hs, hb.step hc.layout hc.accounted hs,
      hwa.step hc.accounted hok hs⟩
  · intro permit hp
    cases hp
  · intro p m hm
    cases hm
  · intro m hm
    cases hm
  · intro p m hp
    cases hp
  · intro w watcher hw
    cases hw

theorem WatcherInv.closedGone {s : TunnelRegistry} (h : s.WatcherInv) (hn : s.replace = none)
    (hd : s.WatchersDone) : s.ClosedGone := by
  obtain ⟨owner, hw⟩ := h.watched
  have hme : ∀ p, ∀ m ∈ (s.pools p).members, s.closed m.connection = false := by
    intro p m hm
    obtain ⟨hs, hwa⟩ := hw.member p m hm
    have ha := hd.1 _ hs.1
    rw [show s.watchers m.closeWatcher = _ from hwa] at ha
    simpa using ha
  refine ⟨hme, fun permit hp => ?_⟩
  obtain ⟨x, hx, rfl⟩ := h.backed.carried permit hp
  cases hx with
  | @member p m hm hx =>
    subst hx
    exact ⟨.pool p, _, List.mem_map_of_mem hm, rfl, hme p m hm⟩
  | detached hm =>
    rw [hn] at hm
    cases hm
  | released hmm => exact ⟨.released, _, hmm, rfl, hd.2 _ hmm⟩

/-- In a run in which no close watcher overtakes the push of its member, whenever no
pool operation is in progress and the watchers of closed connections have run, closed
connections have left the pools and given back their permits. -/
theorem closed_connections_leave (snapshot : ManagedSnapshot) (limits : ServerAdmissionLimits)
    (s : TunnelRegistry)
    (hrun : system.Steps PushesFirst (fromAuthorizationWithAdmission snapshot limits) s)
    (hq : s.Quiescent) (hdone : s.WatchersDone) : s.ClosedGone :=
  (watcherInv_of_steps hrun).closedGone (Option.isNone_iff_eq_none.mp hq.1) hdone

/-- A connection of Tunnel `a`, and a replacement up to the adoption of its member. -/
def connectThenAdopt : List Action :=
  replaceFor [sampleTunnel "a" [sampleIdentity 1]] 6 ++ registerFor (sampleIdentity 1) 0 ++
    replaceFor [sampleTunnel "a" [sampleIdentity 1]] 4 ++
      [.connectionEnds ⟨0, sampleIdentity 1⟩, .pollReplace]

/-- The watcher runs after the push. -/
theorem closed_connections_leave_after_push :
    ∃ s, system.Steps PushesFirst (fromAuthorizationWithAdmission .empty {}) s ∧ s.Quiescent ∧
      s.WatchersDone ∧ s.closed ⟨0, sampleIdentity 1⟩ = true ∧ s.ClosedGone := by
  have he : ∃ s ∈ system.execWhile PushesFirst (fromAuthorizationWithAdmission .empty {})
      (connectThenAdopt ++ [.pollReplace, .runWatcher 1, .pollReplace, .pollReplace, .pollReplace]),
      s.Quiescent ∧ s.WatchersDone ∧ s.closed ⟨0, sampleIdentity 1⟩ = true := by
    decide
  obtain ⟨s, hs, hq, hd, hc⟩ := he
  have hr := Lts.Steps.of_execWhile hs
  exact ⟨s, hr, hq, hd, hc, closed_connections_leave _ _ s hr hq hd⟩

/-- The watcher that `adopt_member` spawned runs before the push: the closed connection
stays in its pool, with its permit. -/
theorem adopted_after_watcher :
    ∃ s, system.Reaches (fromAuthorizationWithAdmission .empty {}) s ∧ s.Quiescent ∧
      s.WatchersDone ∧ ¬ s.ClosedGone ∧
      ∃ m ∈ (s.pools 0).members, s.closed m.connection = true ∧
        m.admissionPermit ∈ s.admission.live := by
  have he : ∃ s ∈ system.exec (fromAuthorizationWithAdmission .empty {})
      (connectThenAdopt ++ [.runWatcher 1, .pollReplace, .pollReplace, .pollReplace, .pollReplace]),
      s.Quiescent ∧ s.WatchersDone ∧ ∃ m ∈ (s.pools 0).members, s.closed m.connection = true ∧
        m.admissionPermit ∈ s.admission.live := by
    decide
  obtain ⟨s, hs, hq, hd, m, hm, hc, hp⟩ := he
  refine ⟨s, .of_exec hs, hq, hd, fun hg => ?_, m, hm, hc, hp⟩
  cases hc.symm.trans (hg.members 0 m hm)

/-! ## Open connections -/

/-- While no replacement is dropped, a member whose connection is open is neither lost nor
doubled: it is in a pool, on the way to one or left to the task that waits for its connection to
close, with its counter and its live permit, and nothing is held twice. -/
theorem open_member_kept (snapshot : ManagedSnapshot) (limits : ServerAdmissionLimits)
    {s₀ s : TunnelRegistry} {p : PoolId} {m : PoolMember}
    (hreach : system.Reaches (fromAuthorizationWithAdmission snapshot limits) s₀)
    (hm : m ∈ (s₀.pools p).members) (hrun : system.Reaches s₀ s)
    (hopen : s.closed m.connection = false) :
    Carries s (cargo m.toTakenPoolMember) ∧ m.admissionPermit ∈ s.admission.live ∧
      ∀ k l, ∀ x ∈ s.held k, ∀ y ∈ s.held l, x.1 = y.1 → k = l ∧ x = y := by
  have hi := hreach.invariant (I := HasOwners)
    (fun _ _ _ h _ hs => h.step (poolsStep_of_step hs))
    (hasOwners_fromAuthorizationWithAdmission snapshot limits)
  -- Whatever lets go of the connection has seen it close, and it stays closed.
  have hc := hrun.invariant (I := fun s => s.CoreInv ∧ s.HasOwners ∧
      (s.closed m.connection = true ∨ Carries s (cargo m.toTakenPoolMember))) ?_
    ⟨coreInv_of_steps hreach, hi, .inr (.member hm rfl)⟩
  · obtain ⟨hc, -, hcl | hca⟩ := hc
    · cases hopen.symm.trans hcl
    · have ho := hc.accounted.connections
      exact ⟨hca, hca.live hc.accounted,
        fun k l x hx y hy he => ⟨ho.site_eq hx hy he, ho.eq hx hy he⟩⟩
  · rintro s a s' ⟨hc, ho, hk⟩ - hst
    have hs := poolsStep_of_step hst
    refine ⟨hc.step hs, ho.step hs, ?_⟩
    rcases hk with hcl | hca
    · exact .inl (hs.closed hcl)
    · by_cases hse : s.SeesClosed m.connection a
      · exact .inl (hs.closed (closed_of_seesClosed hse hst))
      · exact .inr (hca.step hc.layout ho hs hse)

/-- The member is out of its pool while a replacement adopts it. -/
theorem open_member_kept_in_adoption :
    ∃ s₀ s, ∃ m ∈ (s₀.pools 0).members,
      system.Reaches (fromAuthorizationWithAdmission .empty {}) s₀ ∧ system.Reaches s₀ s ∧
      (s.pools 0).members = [] ∧ Carries s (cargo m.toTakenPoolMember) := by
  have he : ∃ s₀ ∈ system.exec (fromAuthorizationWithAdmission .empty {})
      (connectThenAdopt.take 11), ∃ s ∈ system.exec s₀ ((connectThenAdopt.drop 11).take 5),
      ∃ m ∈ (s₀.pools 0).members, s.closed m.connection = false ∧ (s.pools 0).members = [] := by
    decide
  obtain ⟨s₀, h₀, s, hs, m, hm, hc, hn⟩ := he
  have hr := Lts.Reaches.of_exec h₀
  have hr' := Lts.Reaches.of_exec hs
  exact ⟨s₀, s, m, hm, hr, hr', hn, (open_member_kept .empty {} hr hm hr' hc).1⟩

end TunnelRegistry

end Runewarp.Server
