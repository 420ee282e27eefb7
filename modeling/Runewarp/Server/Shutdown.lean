import Runewarp.Server.Cancellation

/-!
# Shutdown reaches the connections

`close_all` and `shutdown_connections` copy the pool vector, release it and visit
the pools one at a time.  A replacement that runs meanwhile takes the members out
of their pools and puts them back by Client identity, so a member can move from a
pool the call has yet to visit to one it has already visited, or to a new one; and
a replacement that is dropped leaves what it holds in no pool.

A call covers a connection as long as it has reached it, has spawned its shutdown
task, or will still find it: in a pool it has yet to visit, or in the hands of a
replacement.  `KeepsInReach` names the moves that break this, and
`shutdown_reaches_members` says that there are no others.
-/

namespace Runewarp.Server

namespace ShutdownCall

def kind : ShutdownCall → CallKind
  | .awaitPools kind _ => kind
  | .readPools kind _ => kind
  | .visiting kind _ _ _ _ => kind
  | .returned kind _ => kind

def members : ShutdownCall → List ServerTunnel
  | .awaitPools _ members => members
  | .readPools _ members => members
  | .visiting _ members _ _ _ => members
  | .returned _ members => members

/-- The pools a call has yet to visit.  Before it has copied the vector these are
the pools of the vector. -/
def remaining (vector : List PoolId) : ShutdownCall → List PoolId
  | .awaitPools _ _ => vector
  | .readPools _ _ => vector
  | .visiting _ _ todo _ _ => todo
  | .returned _ _ => []

/-- The connections whose shutdown task has not been polled. -/
def spawned : ShutdownCall → List ServerTunnel
  | .visiting .shutdownConnections _ _ spawned _ => spawned
  | _ => []

def isReturned : ShutdownCall → Bool
  | .returned _ _ => true
  | _ => false

/-- The next step of the call is its return. -/
def returnsNext : ShutdownCall → Bool
  | .visiting _ _ [] [] [] => true
  | _ => false

end ShutdownCall

namespace TunnelRegistry

/-! ## Steps of a call -/

def callsView (s : TunnelRegistry) := (s.calls, s.nextCall, s.shutdownCalled)

theorem callsView_replaceStep {s s' : TunnelRegistry} (h : ReplaceStep s s') :
    s'.callsView = s.callsView := by
  cases h <;> rfl

/-- What a step does to call `t`. -/
inductive CallStep (s : TunnelRegistry) (t : Nat) : Action → TunnelRegistry → Prop where
  /-- Nothing; another call may have called `shutdown` on a connection. -/
  | other :
      s.nextCall ≤ s'.nextCall →
      s'.calls t = s.calls t →
      (∀ c, s.shutdownCalled c = true → s'.shutdownCalled c = true) →
      CallStep s t a s'
  | move :
      s.nextCall ≤ s'.nextCall →
      s.calls t = some call →
      s'.calls t = some call' →
      SamePools s s' →
      (∀ c, s.shutdownCalled c = true → s'.shutdownCalled c = true) →
      (call'.kind = call.kind ∧ call'.members = call.members) →
      (call.isReturned = false ∧ call'.isReturned = false) →
      -- A pool leaves the remaining ones when the call has closed or taken in its members.
      (∀ p ∈ call.remaining s.tunnelPools, p ∈ call'.remaining s.tunnelPools ∨
        ∀ c ∈ (s.pools p).connections, s'.closed c = true ∨ c ∈ call'.spawned) →
      (∀ c ∈ call.spawned, c ∈ call'.spawned) →
      CallStep s t a s'
  | returns :
      s.nextCall ≤ s'.nextCall →
      s.calls t = some (.visiting kind ms [] [] []) →
      s'.calls t = some (.returned kind ms) →
      SamePools s s' →
      s'.shutdownCalled = s.shutdownCalled →
      CallStep s t (.pollCall t) s'
  /-- The shutdown task of a connection is polled. -/
  | shutdown :
      s.nextCall ≤ s'.nextCall →
      s.calls t = some (.visiting .shutdownConnections ms todo spawned running) →
      s'.calls t = some (.visiting .shutdownConnections ms todo (spawned.erase c)
        (c :: running)) →
      SamePools s s' →
      s'.shutdownCalled = Function.update s.shutdownCalled c true →
      CallStep s t a s'

variable {s s' : TunnelRegistry} {t u : Nat} {a : Action} {c : ServerTunnel} {call : ShutdownCall}
  {kind : CallKind} {ms : List ServerTunnel}

theorem calls_setCall (s : TunnelRegistry) (t : Nat) (call : ShutdownCall) :
    (s.setCall t call).calls t = some call :=
  Function.update_self ..

theorem calls_setCall_of_ne (s : TunnelRegistry) (h : u ≠ t) (call : ShutdownCall) :
    (s.setCall u call).calls t = s.calls t :=
  Function.update_of_ne (Ne.symm h) ..

theorem shutdownCalled_update (s : TunnelRegistry) (c : ServerTunnel) :
    ∀ d, s.shutdownCalled d = true → Function.update s.shutdownCalled c true d = true := by
  intro d hd
  by_cases h : d = c
  · rw [h, Function.update_self]
  · rw [Function.update_of_ne h, hd]

theorem CallStep.of_view (h : s'.callsView = s.callsView) : CallStep s t a s' := by
  simp only [callsView, Prod.mk.injEq] at h
  refine .other (Nat.le_of_eq h.2.1.symm) (by rw [h.1]) fun c hc => ?_
  rw [h.2.2]
  exact hc

theorem callStep_pollCall (h : s.pollCall u = some s') : CallStep s t (.pollCall u) s' := by
  have hs := samePools_pollCall h
  by_cases hu : u = t
  · subst hu
    unfold pollCall at h
    split at h
    · next hc =>
      obtain ⟨lock, -, rfl⟩ := Option.map_eq_some_iff.mp h
      exact .move le_rfl hc (calls_setCall ..) hs (fun _ h => h) ⟨rfl, rfl⟩ ⟨rfl, rfl⟩
        (fun p hp => .inl hp) (fun c hc => hc)
    · next hc =>
      cases h
      exact .move le_rfl hc (calls_setCall ..) hs (fun _ h => h) ⟨rfl, rfl⟩ ⟨rfl, rfl⟩
        (fun p hp => .inl hp) (fun c hc => by cases hc)
    · next ms p todo spawned running hc =>
      cases h
      refine .move le_rfl hc (calls_setCall ..) hs (fun _ h => h) ⟨rfl, rfl⟩
        ⟨rfl, rfl⟩ ?_ (fun c hc => hc)
      intro q hq
      rcases List.mem_cons.mp hq with rfl | hq
      · exact .inr fun c hc => .inl (close_closed.mpr (.inr hc))
      · exact .inl hq
    · next ms p todo spawned running hc =>
      cases h
      refine .move le_rfl hc (calls_setCall ..) hs (fun _ h => h) ⟨rfl, rfl⟩
        ⟨rfl, rfl⟩ ?_
        (fun c hc => List.mem_append_left _ hc)
      intro q hq
      rcases List.mem_cons.mp hq with rfl | hq
      · exact .inr fun c hc => .inr (List.mem_append_right _ hc)
      · exact .inl hq
    · next hc =>
      cases h
      exact .returns le_rfl hc (calls_setCall ..) hs rfl
    all_goals cases h
  · have hca : s'.calls t = s.calls t ∧ s'.nextCall = s.nextCall ∧
        s'.shutdownCalled = s.shutdownCalled := by
      unfold pollCall at h
      split at h
      · obtain ⟨lock, -, rfl⟩ := Option.map_eq_some_iff.mp h
        exact ⟨calls_setCall_of_ne _ hu _, rfl, rfl⟩
      all_goals cases h
      all_goals exact ⟨calls_setCall_of_ne _ hu _, rfl, rfl⟩
    exact .other (Nat.le_of_eq hca.2.1.symm) hca.1 fun c hc => by rw [hca.2.2]; exact hc

theorem callStep_pollShutdown
    (h : s.pollShutdown u c = some s') : CallStep s t (.pollShutdown u c) s' := by
  have hs := samePools_pollShutdown h
  unfold pollShutdown at h
  split at h
  · next kind ms todo spawned running hc =>
    split at h
    · cases h
      by_cases hu : u = t
      · subst hu
        cases kind with
        | shutdownConnections => exact .shutdown le_rfl hc (calls_setCall ..) hs rfl
        | closeAll =>
          exact .move le_rfl hc (calls_setCall ..) hs (shutdownCalled_update s c)
            ⟨rfl, rfl⟩
            ⟨rfl, rfl⟩ (fun p hp => .inl hp) (fun c hc => hc)
      · exact .other le_rfl (calls_setCall_of_ne _ hu _) (shutdownCalled_update s c)
    · split at h
      · cases h
        by_cases hu : u = t
        · subst hu
          exact .move le_rfl hc (calls_setCall ..) hs (fun _ h => h) ⟨rfl, rfl⟩
            ⟨rfl, rfl⟩
            (fun p hp => .inl hp) (fun c hc => by cases kind <;> exact hc)
        · exact .other le_rfl (calls_setCall_of_ne _ hu _) fun c' hc' => hc'
      · cases h
  · cases h

theorem CallStep.nextCall_le (h : CallStep s t a s') : s.nextCall ≤ s'.nextCall := by
  cases h with
  | other hle | move hle | returns hle | shutdown hle => exact hle

theorem callStep_of_step
    (h : system.step s a = some s') (ht : t < s.nextCall) : CallStep s t a s' := by
  cases a with
  | register c =>
    cases h
    refine .of_view ?_
    simp only [startRegister]
    split <;> rfl
  | pollRegister u =>
    obtain ⟨_, _, _, _, _, _, _, _, -, rfl⟩ := frame_pollRegister h
    exact .of_view rfl
  | replaceAuthorization serverHostname tunnels =>
    obtain ⟨-, rfl | ⟨snapshot, rfl⟩⟩ := startReplace_eq_some h
    · exact .of_view rfl
    · exact .of_view rfl
  | pollReplace => exact .of_view (callsView_replaceStep (replaceStep_of_pollReplace h))
  | runWatcher w =>
    obtain ⟨_, _, _, rfl⟩ := frame_runWatcher h
    exact .of_view rfl
  | runRelease c permit =>
    obtain ⟨-, ⟨⟩⟩ := Option.ite_some_none_eq_some.mp h
    exact .of_view rfl
  | visitor host =>
    cases h
    refine .of_view ?_
    simp only [startVisitor]
    split <;> rfl
  | pollVisitor u =>
    obtain ⟨_, _, _, _, _, _, -, rfl⟩ := frame_pollVisitor h
    exact .of_view rfl
  | dropVisitor u =>
    obtain ⟨_, _, _, rfl⟩ := frame_dropVisitor h
    exact .of_view rfl
  | call kind =>
    cases h
    exact .other (Nat.le_succ _) (calls_setCall_of_ne _ (Nat.ne_of_gt ht) _) fun c hc => hc
  | pollCall u => exact callStep_pollCall h
  | pollShutdown u c => exact callStep_pollShutdown h
  | _ =>
    cases h
    exact .of_view rfl

/-! ## Coverage -/

/-- The call has had its effect on a connection. -/
def ReachedBy (s : TunnelRegistry) (kind : CallKind) (c : ServerTunnel) : Prop :=
  s.closed c = true ∨ (kind = .shutdownConnections ∧ s.shutdownCalled c = true)

/-- A connection is in one of the pools, or a replacement holds it. -/
def Findable (s : TunnelRegistry) (ps : List PoolId) (c : ServerTunnel) : Prop :=
  (∃ m ∈ detached s.replace, m.connection = c) ∨ ∃ p ∈ ps, c ∈ (s.pools p).connections

def Covered (s : TunnelRegistry) (call : ShutdownCall) (c : ServerTunnel) : Prop :=
  s.ReachedBy call.kind c ∨
    (call.isReturned = false ∧
      (c ∈ call.spawned ∨ s.Findable (call.remaining s.tunnelPools) c))

/-- The next step of a replacement leaves connection `c` where the call will find it. -/
def KeepsReplacing (s : TunnelRegistry) (call : ShutdownCall) (c : ServerTunnel) :
    ReplaceTask → Prop
  | .adoptPush _ p member _ _ => member.connection = c → p ∈ call.remaining s.tunnelPools
  | .adopting next (member :: _) _ =>
    member.connection = c →
      ((next.snapshot.index member.clientIdentity).bind fun i => s.tunnelPools[i]?).isSome = true
  | .taking previous next [] _ _ =>
    ∀ p ∈ call.remaining s.tunnelPools, c ∈ (s.pools p).connections →
      p ∈ call.remaining (s.rebuilt previous next).1
  | _ => True

/-- An action leaves connection `c` where call `t` will find it. -/
def Keeps (s : TunnelRegistry) (t : Nat) (call : ShutdownCall) (c : ServerTunnel) :
    AdmissionAction → Prop
  | .act .pollReplace => ∀ task ∈ s.replace, s.KeepsReplacing call c task
  | .act (.pollCall u) =>
    u = t → call.returnsNext = true → ∀ m ∈ detached s.replace, m.connection ≠ c
  | .act _ => True
  | .dropReplace => ∀ m ∈ detached s.replace, m.connection ≠ c

/-- No action takes a connection call `t` has yet to reach out of its way: a
replacement adopts it into a pool the call has yet to visit, and neither drops it
nor drops its pool before the call has copied the vector; and while a replacement
holds it, the call does not return and the replacement is not dropped. -/
def KeepsInReach (t : Nat) (s : TunnelRegistry) (a : AdmissionAction) : Prop :=
  ∀ call ∈ s.calls t, ∀ c ∈ call.members, ¬ s.ReachedBy call.kind c → c ∉ call.spawned →
    s.Keeps t call c a

theorem Findable.of_eq {ps : List PoolId}
    (h : s.Findable ps c) (hd : detached s.replace = []) (hp : s'.pools = s.pools) :
    s'.Findable ps c := by
  rcases h with ⟨m, hm, -⟩ | ⟨p, hps, hc⟩
  · rw [hd] at hm
    cases hm
  · exact .inr ⟨p, hps, hp ▸ hc⟩

theorem Findable.replaceStep (h : s.Findable (call.remaining s.tunnelPools) c)
    (hs : ReplaceStep s s') (hk : s.Keeps t call c (.act .pollReplace)) :
    s'.Findable (call.remaining s'.tunnelPools) c := by
  cases hs with
  | lock hr | commit hr | commitKeeping hr | closePool hr | closed hr | unlock hr | reset hr
  | finish hr => exact h.of_eq (by rw [hr]; rfl) rfl
  | @takePool previous next p todo taken n hr =>
    rcases h with ⟨m, hm, hmc⟩ | ⟨q, hq, hc⟩
    · rw [hr] at hm
      exact .inl ⟨m, List.mem_append_left _ hm, hmc⟩
    · by_cases hqp : q = p
      · subst hqp
        obtain ⟨m, hm, hmc⟩ := ActiveClientPool.mem_takeMembers.mp hc
        exact .inl ⟨m, List.mem_append_right _ hm, hmc⟩
      · exact .inr ⟨q, hq, mem_setPool.mpr (.inr ⟨hqp, hc⟩)⟩
  | rebuild hr =>
    rcases h with ⟨m, hm, hmc⟩ | ⟨q, hq, hc⟩
    · rw [hr] at hm
      exact .inl ⟨m, hm, hmc⟩
    · exact .inr ⟨q, hk _ hr q hq hc, hc⟩
  | @revoke next member todo n hr hi =>
    have hk := hk _ hr
    simp only [KeepsReplacing, hi] at hk
    rcases h with ⟨m, hm, hmc⟩ | hin
    · rw [hr] at hm
      rcases List.mem_cons.mp hm with rfl | hm
      · cases hk hmc
      · exact .inl ⟨m, hm, hmc⟩
    · exact .inr hin
  | @discard next member todo n i hr hi hp =>
    have hk := hk _ hr
    simp only [KeepsReplacing, hi, Option.bind_some, hp] at hk
    rcases h with ⟨m, hm, hmc⟩ | hin
    · rw [hr] at hm
      rcases List.mem_cons.mp hm with rfl | hm
      · cases hk hmc
      · exact .inl ⟨m, hm, hmc⟩
    · exact .inr hin
  | @adopt next member todo n i p hr hi hp =>
    rcases h with ⟨m, hm, hmc⟩ | ⟨q, hq, hc⟩
    · rw [hr] at hm
      rcases List.mem_cons.mp hm with rfl | hm
      · exact .inl ⟨_, .head _, hmc⟩
      · exact .inl ⟨m, .tail _ hm, hmc⟩
    · exact .inr ⟨q, hq, mem_setPool_of_mem hc fun hc => hc⟩
  | @push next p member todo n hr =>
    rcases h with ⟨m, hm, hmc⟩ | ⟨q, hq, hc⟩
    · rw [hr] at hm
      rcases List.mem_cons.mp hm with rfl | hm
      · exact .inr ⟨p, hk _ hr hmc, mem_setPool.mpr (.inl ⟨rfl, by simp [← hmc]⟩)⟩
      · exact .inl ⟨m, hm, hmc⟩
    · exact .inr ⟨q, hq, mem_setPool_of_mem hc fun hc => by simp [hc]⟩

theorem PoolsStep.closed (h : PoolsStep s a s') (hc : s.closed c = true) : s'.closed c = true := by
  cases h with
  | same hsa => exact hsa.closed c hc
  | replace hs =>
    cases hs with
    | closePool _ => exact close_closed.mpr (.inl hc)
    | _ => exact hc
  | _ => exact hc

theorem ReachedBy.mono (h : s.ReachedBy kind c) (hcl : s.closed c = true → s'.closed c = true)
    (hca : s.shutdownCalled c = true → s'.shutdownCalled c = true) : s'.ReachedBy kind c := by
  rcases h with hc | ⟨hk, hc⟩
  · exact .inl (hcl hc)
  · exact .inr ⟨hk, hca hc⟩

/-- Another task moves: what the call will find it still finds, or has closed. -/
theorem Findable.poolsStep (h : s.Findable (call.remaining s.tunnelPools) c) (ho : s.HasOwners)
    (hs : PoolsStep s a s') (hk : s.Keeps t call c (.act a)) :
    s'.closed c = true ∨ s'.Findable (call.remaining s'.tunnelPools) c := by
  cases hs with
  | same hsa =>
    right
    unfold Findable
    rw [hsa.replace, hsa.tunnelPools]
    refine h.imp_right ?_
    rintro ⟨p, hp, hc⟩
    refine ⟨p, hp, ?_⟩
    rw [ActiveClientPool.connections, hsa.members p]
    exact hc
  | insert _ hok =>
    right
    obtain ⟨-, -, -, -, -, hme, -⟩ := ActiveClientPool.tryRegister_eq_ok hok
    refine h.imp_right ?_
    rintro ⟨p, hp, hc⟩
    refine ⟨p, hp, mem_setPool_of_mem hc fun hc => ?_⟩
    obtain ⟨m, hm, hmc⟩ := ActiveClientPool.mem_connections.mp hc
    exact ActiveClientPool.mem_connections.mpr
      ⟨m, by rw [hme]; exact List.mem_append_left _ hm, hmc⟩
  | @remove w watcher hw hcl =>
    rcases h with hd | ⟨p, hp, hc⟩
    · exact .inr (.inl hd)
    · by_cases hcc : s.closed c = true
      · exact .inl hcc
      · refine .inr (.inr ⟨p, hp, mem_setPool_of_mem hc fun hc => ?_⟩)
        -- A watcher removes closed connections only, and `c` is open.
        obtain ⟨m, hm, hmc⟩ := ActiveClientPool.mem_connections.mp hc
        refine ActiveClientPool.mem_connections.mpr
          ⟨m, ActiveClientPool.mem_removeMember.mpr ⟨hm, fun hid => hcc ?_⟩, hmc⟩
        exact hmc ▸ ho.closed_of_removed hw hcl hm hid
  | release => exact .inr h
  | start hn => exact .inr (h.of_eq (by rw [hn]; rfl) rfl)
  | replace hs => exact .inr (h.replaceStep hs hk)

/-! ## Runs -/

/-- Call `t` covers the connections it began with. -/
structure Covers (s : TunnelRegistry) (t : Nat) (kind : CallKind) (ms : List ServerTunnel) :
    Prop where
  started : t < s.nextCall
  covered : ∃ call, s.calls t = some call ∧ (call.kind = kind ∧ call.members = ms) ∧
    ∀ c ∈ ms, s.Covered call c

theorem Covers.act (h : s.Covers t kind ms) (ho : s.HasOwners) (hk : KeepsInReach t s (.act a))
    (hst : system.step s a = some s') : s'.Covers t kind ms := by
  obtain ⟨ht, call, hcl, ⟨rfl, rfl⟩, hcv⟩ := h
  have hpo := poolsStep_of_step hst
  have hcs := callStep_of_step hst ht
  refine ⟨Nat.lt_of_lt_of_le ht hcs.nextCall_le, ?_⟩
  cases hcs with
  | other _ hs hca =>
    refine ⟨call, hs.trans hcl, ⟨rfl, rfl⟩, fun c hc => ?_⟩
    by_cases hr : s.ReachedBy call.kind c
    · exact .inl (hr.mono hpo.closed (hca c))
    obtain ⟨hg, hsa | hf⟩ := (hcv c hc).resolve_left hr
    · exact .inr ⟨hg, .inl hsa⟩
    by_cases hsp : c ∈ call.spawned
    · exact .inr ⟨hg, .inl hsp⟩
    rcases hf.poolsStep ho hpo (hk call hcl c hc hr hsp) with hco | hf'
    · exact .inl (.inl hco)
    · exact .inr ⟨hg, .inr hf'⟩
  | @move call₁ call' _ _ _ hc₁ hc' hs hca hid hg hre hsa =>
    cases hcl.symm.trans hc₁
    refine ⟨call', hc', hid, fun c hc => ?_⟩
    rcases hcv c hc with hr | ⟨-, hsp | hf⟩
    · exact .inl (hid.1 ▸ hr.mono (hs.closed c) (hca c))
    · exact .inr ⟨hg.2, .inl (hsa c hsp)⟩
    · rcases hf with hd | ⟨p, hp, hcp⟩
      · exact .inr ⟨hg.2, .inr (.inl (hs.replace ▸ hd))⟩
      · rcases hre p hp with hp' | hdo
        · refine .inr ⟨hg.2, .inr (.inr ⟨p, hs.tunnelPools ▸ hp', ?_⟩)⟩
          rw [ActiveClientPool.connections, hs.members p]
          exact hcp
        · rcases hdo c hcp with hco | hsp
          · exact .inl (.inl hco)
          · exact .inr ⟨hg.2, .inl hsp⟩
  | @returns kind ms _ _ hc₁ hc' hs hca =>
    cases hcl.symm.trans hc₁
    refine ⟨_, hc', ⟨rfl, rfl⟩, fun c hc => .inl ?_⟩
    by_cases hr : s.ReachedBy kind c
    · exact hr.mono (hs.closed c) fun h => by rw [hca]; exact h
    have he : ShutdownCall.spawned (.visiting kind ms [] [] []) = [] := by cases kind <;> rfl
    obtain ⟨-, hsp | ⟨m, hm, hmc⟩ | ⟨p, hp, -⟩⟩ := (hcv c hc).resolve_left hr
    · rw [he] at hsp
      cases hsp
    · have hsp : c ∉ ShutdownCall.spawned (.visiting kind ms [] [] []) := by simp [he]
      exact absurd hmc (hk _ hcl c hc hr hsp rfl rfl m hm)
    · cases hp
  | @shutdown ms todo spawned running _ d _ _ hc₁ hc' hs hca =>
    cases hcl.symm.trans hc₁
    have hmo : ∀ c, s.shutdownCalled c = true → s'.shutdownCalled c = true := by
      rw [hca]
      exact shutdownCalled_update s d
    refine ⟨_, hc', ⟨rfl, rfl⟩, fun c hc => ?_⟩
    rcases hcv c hc with hr | ⟨-, hsp | hd | ⟨p, hp, hcp⟩⟩
    · exact .inl (hr.mono (hs.closed c) (hmo c))
    · by_cases hcd : c = d
      · exact .inl (.inr ⟨rfl, by rw [hca, hcd, Function.update_self]⟩)
      · exact .inr ⟨rfl, .inl ((List.mem_erase_of_ne hcd).mpr hsp)⟩
    · exact .inr ⟨rfl, .inr (.inl (hs.replace ▸ hd))⟩
    · refine .inr ⟨rfl, .inr (.inr ⟨p, hp, ?_⟩)⟩
      rw [ActiveClientPool.connections, hs.members p]
      exact hcp

theorem Covers.dropReplace (h : s.Covers t kind ms) (hk : KeepsInReach t s .dropReplace)
    (hd : s.dropReplace = some s') : s'.Covers t kind ms := by
  obtain ⟨ht, call, hcl, ⟨rfl, rfl⟩, hcv⟩ := h
  obtain ⟨lock, rfl⟩ := dropReplace_eq hd
  refine ⟨ht, call, hcl, ⟨rfl, rfl⟩, fun c hc => ?_⟩
  by_cases hr : s.ReachedBy call.kind c
  · exact .inl hr
  obtain ⟨hg, hf⟩ := (hcv c hc).resolve_left hr
  refine .inr ⟨hg, ?_⟩
  by_cases hsp : c ∈ call.spawned
  · exact .inl hsp
  · rcases hf.resolve_left hsp with ⟨m, hm, hmc⟩ | hin
    · exact absurd hmc (hk call hcl c hc hr hsp m hm)
    · exact .inr (.inr hin)

/-- A call of `close_all` or `shutdown_connections` that nothing takes connections
away from has reached every connection it began with when it returns. -/
theorem shutdown_reaches_members (snapshot : ManagedSnapshot) (limits : ServerAdmissionLimits)
    (kind : CallKind) (s₀ s : TunnelRegistry)
    (hreach : droppable.Reaches (fromAuthorizationWithAdmission snapshot limits) s₀)
    (hrun : droppable.Steps (KeepsInReach s₀.nextCall) (s₀.startCall kind) s)
    (hret : (s.calls s₀.nextCall).any ShutdownCall.isReturned = true) :
    ∀ c ∈ s₀.members, s.ReachedBy kind c := by
  have howners : ∀ {s s' : TunnelRegistry} {a : AdmissionAction}, s.HasOwners →
      droppable.step s a = some s' → s'.HasOwners := by
    intro s s' a h hs
    cases a with
    | act a => exact h.step (poolsStep_of_step hs)
    | dropReplace => exact h.dropReplace hs
  have ho : s₀.HasOwners := hreach.invariant (fun _ _ _ h _ hs => howners h hs)
    (hasOwners_fromAuthorizationWithAdmission snapshot limits)
  have hst : (s₀.startCall kind).Covers s₀.nextCall kind s₀.members := by
    refine ⟨Nat.lt_succ_self _, _, calls_setCall .., ⟨rfl, rfl⟩, fun c hc => ?_⟩
    obtain ⟨p, hp, hcp⟩ := List.mem_flatMap.mp hc
    exact .inr ⟨rfl, .inr (.inr ⟨p, hp, hcp⟩)⟩
  have hi := hrun.invariant
    (I := fun s => s.HasOwners ∧ s.Covers s₀.nextCall kind s₀.members)
    (fun s a s' h hk hs => by
      refine ⟨howners h.1 hs, ?_⟩
      cases a with
      | act a => exact h.2.act h.1 hk hs
      | dropReplace => exact h.2.dropReplace hk hs)
    ⟨howners (a := .act (.call kind)) ho rfl, hst⟩
  obtain ⟨-, -, call, hca, ⟨hki, -⟩, hco⟩ := hi
  rw [hca, Option.any_some] at hret
  intro c hc
  rcases hco c hc with hr | ⟨hg, -⟩
  · exact hki ▸ hr
  · cases hret.symm.trans hg

/-- New work is refused, and no call of `register` is in progress. -/
def Sealed (s : TunnelRegistry) : Prop :=
  s.acceptingTunnelConnections = false ∧
    ∀ t < s.nextConnection, (s.registers t).all RegisterTask.isReturned = true

instance (s : TunnelRegistry) : Decidable s.Sealed := inferInstanceAs (Decidable (_ ∧ _))

instance (s : TunnelRegistry) (kind : CallKind) (c : ServerTunnel) :
    Decidable (s.ReachedBy kind c) :=
  inferInstanceAs (Decidable (_ ∨ _))

instance (s : TunnelRegistry) (call : ShutdownCall) (c : ServerTunnel) (task : ReplaceTask) :
    Decidable (s.KeepsReplacing call c task) := by
  unfold KeepsReplacing
  split <;> infer_instance

instance (s : TunnelRegistry) (t : Nat) (call : ShutdownCall) (c : ServerTunnel)
    (a : AdmissionAction) : Decidable (s.Keeps t call c a) := by
  unfold Keeps
  split <;> infer_instance

instance (t : Nat) (s : TunnelRegistry) (a : AdmissionAction) : Decidable (KeepsInReach t s a) :=
  inferInstanceAs (Decidable (∀ call ∈ s.calls t, _))

/-- Two Tunnels with a connection each, and new work refused. -/
def sampleSealed : List Action := twoRegistered ++ [.stopAcceptingNewWork]

/-- The shutdown task of a connection runs to its end. -/
def runShutdown (kind : CallKind) (c : ServerTunnel) : List Action :=
  match kind with
  | .closeAll => []
  | .shutdownConnections => [.pollShutdown 0 c, .pollShutdown 0 c]

/-- Between the copy of the vector and the visits, a replacement that keeps the Tunnels is
dropped after its commit, and another one runs to its end. -/
theorem shutdown_reaches_members_of_same_tunnels :
    ∃ s₀ s, droppable.Reaches (fromAuthorizationWithAdmission .empty {}) s₀ ∧ s₀.Sealed ∧
      droppable.Steps (KeepsInReach s₀.nextCall) (s₀.startCall .shutdownConnections) s ∧
      s.dispatches.length = s₀.dispatches.length + 1 ∧
      s₀.members = [⟨0, sampleIdentity 1⟩, ⟨1, sampleIdentity 2⟩] ∧
      ∀ c ∈ s₀.members, s.ReachedBy .shutdownConnections c := by
  have he : ∃ s₀ ∈ droppable.exec (fromAuthorizationWithAdmission .empty {})
        (sampleSealed.map .act),
      ∃ s ∈ droppable.execWhile (KeepsInReach s₀.nextCall) (s₀.startCall .shutdownConnections)
        ([.act (.pollCall 0), .act (.pollCall 0)] ++ (replaceFor sampleTunnels 2).map .act ++
          [.dropReplace] ++ (replaceFor sampleTunnels 12).map .act ++
          [.act (.pollCall 0), .act (.pollCall 0)] ++
          (runShutdown .shutdownConnections ⟨0, sampleIdentity 1⟩).map .act ++
          (runShutdown .shutdownConnections ⟨1, sampleIdentity 2⟩).map .act ++
          [.act (.pollCall 0)]),
      (s₀.Sealed ∧ (s.calls s₀.nextCall).any ShutdownCall.isReturned = true) ∧
        s.dispatches.length = s₀.dispatches.length + 1 ∧
        s₀.members = [⟨0, sampleIdentity 1⟩, ⟨1, sampleIdentity 2⟩] := by
    decide
  obtain ⟨s₀, hs₀, s, hs, ⟨hse, hre⟩, hd, hm⟩ := he
  have hr := Lts.Reaches.of_exec hs₀
  have hru := Lts.Steps.of_execWhile hs
  exact ⟨s₀, s, hr, hse, hru, hd, hm,
    shutdown_reaches_members _ _ .shutdownConnections s₀ s hr hru hre⟩

/-- A call returns without having reached a member that was there when it started. -/
def MissesMember (kind : CallKind) : Prop :=
  ∃ s₀ s, system.Reaches (fromAuthorizationWithAdmission .empty {}) s₀ ∧ s₀.Sealed ∧
    system.Reaches (s₀.startCall kind) s ∧
    (s.calls s₀.nextCall).any ShutdownCall.isReturned = true ∧
    ∃ c ∈ s₀.members, ¬ s.ReachedBy kind c

/-- The call visits pool `a`; then a replacement gives the identity of `b` to `a` and
moves its connection there.  The call finds `b` empty and returns. -/
theorem moved_member_is_missed :
    MissesMember .closeAll ∧ MissesMember .shutdownConnections := by
  have he : ∀ kind, ∃ s₀ ∈ system.exec (fromAuthorizationWithAdmission .empty {}) sampleSealed,
      ∃ s ∈ system.exec (s₀.startCall kind)
        ([.pollCall 0, .pollCall 0, .pollCall 0] ++
          replaceFor [sampleTunnel "a" [sampleIdentity 1, sampleIdentity 2]] 12 ++
          [.pollCall 0] ++ runShutdown kind ⟨0, sampleIdentity 1⟩ ++ [.pollCall 0]),
      (s₀.Sealed ∧ (s.calls s₀.nextCall).any ShutdownCall.isReturned = true) ∧
        ∃ c ∈ s₀.members, ¬ s.ReachedBy kind c := by
    intro kind
    cases kind <;> decide
  have hm : ∀ kind, MissesMember kind := by
    intro kind
    obtain ⟨s₀, hs₀, s, hs, ⟨hse, hr⟩, hmi⟩ := he kind
    exact ⟨s₀, s, .of_exec hs₀, hse, .of_exec hs, hr, hmi⟩
  exact ⟨hm .closeAll, hm .shutdownConnections⟩

end TunnelRegistry

end Runewarp.Server
