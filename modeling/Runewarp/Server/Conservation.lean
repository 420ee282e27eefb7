import Runewarp.Server.Accounting
import Runewarp.Server.Placement

/-!
# What a replacement conserves

A call of `replace_authorization` detaches every member from its pool, rebuilds
the vector under the Tunnel IDs of the next snapshot and hands each member to the
pool of its identity.  When no registration and no close of a member overlaps with
the call, nothing is lost on the way: a Tunnel keeps its pool, a connection whose
identity stays trusted keeps its stream counter and its permit, and the others are
closed, counted and left to a task that holds their permit.

`Apart` is the condition on a step of a run.  `Course` follows one call from the
state it was made in, and the results about a completed call are read off it.
-/

namespace Runewarp.Server

namespace TunnelRegistry

/-! ## Calls that do not overlap -/

/-- No call of `register` is in progress. -/
def NoRegister (s : TunnelRegistry) : Prop :=
  ∀ t < s.nextConnection, (s.registers t).all RegisterTask.isReturned = true

instance (s : TunnelRegistry) : Decidable s.NoRegister := inferInstanceAs (Decidable (∀ _ < _, _))

/-- No close of a member is in progress: a closed connection has left its pool. -/
def NoClose (s : TunnelRegistry) : Prop :=
  ∀ p < s.nextPool, ∀ m ∈ (s.pools p).members, s.closed m.connection = false

instance (s : TunnelRegistry) : Decidable s.NoClose := inferInstanceAs (Decidable (∀ _ < _, _))

/-- The condition on a step: `replace_authorization` is called with no registration
and no close of a member in progress, and while it runs none begins or goes on.  The
tasks that wait for the connections the call itself closes may run. -/
def Apart (s : TunnelRegistry) : Action → Prop
  | .replaceAuthorization _ _ => s.NoRegister ∧ s.NoClose
  | .register _ | .pollRegister _ | .pollCall _ | .pollShutdown _ _ | .connectionEnds _ =>
    s.replace.isNone = true
  | _ => True

instance (s : TunnelRegistry) : ∀ a, Decidable (s.Apart a)
  | .replaceAuthorization _ _ => inferInstanceAs (Decidable (_ ∧ _))
  | .register _ | .pollRegister _ | .pollCall _ | .pollShutdown _ _ | .connectionEnds _ =>
    inferInstanceAs (Decidable (_ = _))
  | .pollReplace | .runWatcher _ | .runRelease _ _ | .visitor _ | .pollVisitor _ | .dropVisitor _
  | .setReadiness | .stopAcceptingNewWork | .call _ | .refuses _ => inferInstanceAs (Decidable True)

/-- A step while a call of `replace_authorization` is in progress. -/
def InCall (s : TunnelRegistry) (a : Action) : Prop := s.replace.isSome = true ∧ s.Apart a

instance (s : TunnelRegistry) (a : Action) : Decidable (s.InCall a) :=
  inferInstanceAs (Decidable (_ ∧ _))

/-- What a step does while a call of `replace_authorization` is in progress. -/
inductive CallMove (s : TunnelRegistry) : Action → TunnelRegistry → Prop where
  | other :
      SamePools s s' → s'.closed = s.closed → s'.registers = s.registers →
      s'.dispatches = s.dispatches → CallMove s a s'
  | remove :
      s.watchers w = some watcher → s.closed watcher.connection = true →
      CallMove s (.runWatcher w) (s.removed w watcher)
  | release :
      (c, permit) ∈ s.releases → s.closed c = true →
      CallMove s (.runRelease c permit)
        { s with
          releases := s.releases.erase (c, permit)
          admission := s.admission.release permit }
  | replace : ReplaceStep s s' → CallMove s .pollReplace s'

variable {s s' : TunnelRegistry} {a : Action}

theorem callMove_of_step (hok : s.InCall a) (h : system.step s a = some s') : CallMove s a s' := by
  obtain ⟨hso, ha⟩ := hok
  cases a with
  | replaceAuthorization serverHostname tunnels =>
    obtain ⟨task, ht⟩ := Option.isSome_iff_exists.mp hso
    change s.startReplace serverHostname tunnels = some s' at h
    rw [startReplace, ht] at h
    cases h
  | pollReplace => exact .replace (replaceStep_of_pollReplace h)
  | runWatcher w =>
    obtain ⟨watcher, hw, hc, rfl⟩ := runWatcher_eq_some h
    exact .remove hw hc
  | runRelease c permit =>
    obtain ⟨⟨hm, hc⟩, ⟨⟩⟩ := Option.ite_some_none_eq_some.mp h
    exact .release hm hc
  | visitor host =>
    obtain ⟨_, _, _, heq⟩ := frame_startVisitor s host
    cases h
    refine .other (samePools_startVisitor s host) ?_ ?_ ?_ <;> rw [heq]
  | pollVisitor t =>
    have hs := samePools_pollVisitor h
    obtain ⟨_, _, _, _, _, _, -, rfl⟩ := frame_pollVisitor h
    exact .other hs rfl rfl rfl
  | dropVisitor t =>
    have hs := samePools_dropVisitor h
    obtain ⟨_, _, _, rfl⟩ := frame_dropVisitor h
    exact .other hs rfl rfl rfl
  | setReadiness | stopAcceptingNewWork | call | refuses =>
    cases h
    exact .other (.of_view rfl) rfl rfl rfl
  | _ =>
    rw [Option.isNone_iff_eq_none.mp ha] at hso
    cases hso

/-! ## Runs of calls that do not overlap -/

theorem registers_replaceStep (h : ReplaceStep s s') : s'.registers = s.registers := by
  cases h <;> rfl

theorem CallMove.registers (h : CallMove s a s') : s'.registers = s.registers := by
  cases h with
  | other _ _ hr => exact hr
  | replace hre => exact registers_replaceStep hre
  | _ => rfl

/-- The vector has one pool for every Tunnel of the snapshot it was built for. -/
def Aligned (pools : List PoolId) (authorization : SnapshotRef) : Option ReplaceTask → Prop
  | some (.closing previous _ _ _ _) => pools.length = previous.snapshot.tunnelIds.length
  | some (.taking previous _ _ _ _) => pools.length = previous.snapshot.tunnelIds.length
  | _ => pools.length = authorization.snapshot.tunnelIds.length

theorem aligned_replaceStep (hl : s.Layout) (hs : ReplaceStep s s')
    (h : Aligned s.tunnelPools s.authorization s.replace) :
    Aligned s'.tunnelPools s'.authorization s'.replace := by
  have hre := hl.remembers
  cases hs with
  | commit hr | commitKeeping hr =>
    rw [hr] at h hre
    exact (show _ = _ from hre) ▸ h
  | rebuild hr =>
    rw [hr] at hre
    exact hre.1 ▸ (hl.rebuilt _ _).2.2
  | lock hr | closePool hr | closed hr | takePool hr | revoke hr | discard hr
  | adopt hr | push hr | unlock hr | reset hr | finish hr =>
    rw [hr] at h
    exact h

theorem aligned_step (hl : s.Layout) (hs : PoolsStep s a s')
    (h : Aligned s.tunnelPools s.authorization s.replace) :
    Aligned s'.tunnelPools s'.authorization s'.replace := by
  cases hs with
  | same hsa =>
    rw [hsa.tunnelPools, hsa.authorization, hsa.replace]
    exact h
  | start hr =>
    rw [hr] at h
    exact h
  | replace hre => exact aligned_replaceStep hl hre h
  | _ => exact h

/-- What a run of calls that do not overlap keeps. -/
structure ApartInv (s : TunnelRegistry) : Prop where
  core : s.CoreInv
  placement : s.PlacementInv
  aligned : Aligned s.tunnelPools s.authorization s.replace
  /-- While a replacement is in progress, no registration is. -/
  idle : s.replace.isSome = true → ∀ t task, s.registers t = some task → task.isReturned = true
  /-- A registration inserts into the pool of its identity. -/
  inserting : ∀ t c p, s.registers t = some (.tryRegister c p) →
    poolFor s.authorization.snapshot s.tunnelPools c.clientIdentity = some p

theorem apartInv_fromAuthorizationWithAdmission (snapshot : ManagedSnapshot)
    (limits : ServerAdmissionLimits) :
    (fromAuthorizationWithAdmission snapshot limits).ApartInv where
  core := coreInv_fromAuthorizationWithAdmission snapshot limits
  placement := placementInv_fromAuthorizationWithAdmission snapshot limits
  aligned := by
    show (List.range snapshot.val.tunnelCount).length = snapshot.tunnelIds.length
    rw [List.length_range, snapshot.length_tunnelIds]
  idle h := by cases h
  inserting t c p hr := by cases hr

theorem ReplaceStep.isSome (h : ReplaceStep s s') : s.replace.isSome = true := by
  cases h with
  | lock hr | commit hr | commitKeeping hr | closePool hr | closed hr | takePool hr
  | rebuild hr | revoke hr | discard hr | adopt hr | push hr | unlock hr | reset hr
  | finish hr => simp [hr]

section Apart

variable {s s' : TunnelRegistry} {a : Action}

theorem ApartInv.insertsInPlace (h : s.ApartInv) (hok : s.Apart a) : s.InsertsInPlace a := by
  rintro ⟨c, p⟩ hx
  cases a with
  | pollRegister t =>
    have hn : s.replace = none := Option.isNone_iff_eq_none.mp hok
    right
    rw [WillBePlaced, hn]
    refine h.inserting t c p ?_
    simp only [insertion, Option.mem_def] at hx
    split at hx
    · next heq =>
      split at hx <;> cases hx
      exact heq
    · cases hx
  | _ => cases hx

theorem ApartInv.inserting_step (h : s.ApartInv) (hs : PoolsStep s a s') (hn : s.replace = none)
    {t : Nat} {c : ServerTunnel} {p : PoolId} (hr : s'.registers t = some (.tryRegister c p)) :
    poolFor s'.authorization.snapshot s'.tunnelPools c.clientIdentity = some p := by
  cases hs with
  | same hsa =>
    rw [hsa.authorization, hsa.tunnelPools]
    rcases hsa.inserts t c p hr with hold | hf
    · exact h.inserting t c p hold
    · exact hf
  | @insert t' d q member pool admission' _ _ =>
    rcases registers_setRegister.mp hr with ⟨-, hn⟩ | ⟨-, hr⟩
    · cases hn
    · exact h.inserting t c p hr
  | replace hre =>
    have hso := hre.isSome
    rw [hn] at hso
    cases hso
  | _ => exact h.inserting t c p hr

theorem ApartInv.step (h : s.ApartInv) (hok : s.Apart a) (hst : system.step s a = some s') :
    s'.ApartInv := by
  have hs := poolsStep_of_step hst
  refine
    { core := h.core.step hs
      placement := h.placement.step (h.insertsInPlace hok) hst
      aligned := aligned_step h.core.layout hs h.aligned
      idle := ?_
      inserting := ?_ }
  · intro hs' t task hr
    cases hre : s.replace with
    | some =>
      have hso : s.replace.isSome = true := by rw [hre]; rfl
      rw [(callMove_of_step ⟨hso, hok⟩ hst).registers] at hr
      exact h.idle hso t task hr
    | none =>
      -- The step that starts a replacement finds every call of `register` returned.
      cases hs with
      | start =>
        have hlt := (h.core.named t task hr).2
        have ha := hok.1 t hlt
        rw [show s.registers t = some task from hr] at ha
        exact ha
      | same hsa =>
        rw [hsa.replace, hre] at hs'
        cases hs'
      | replace hst =>
        have hso := hst.isSome
        rw [hre] at hso
        cases hso
      | _ =>
        have hso : s.replace.isSome = true := hs'
        rw [hre] at hso
        cases hso
  · intro t c p hr
    cases hre : s.replace with
    | some =>
      have hso : s.replace.isSome = true := by rw [hre]; rfl
      rw [(callMove_of_step ⟨hso, hok⟩ hst).registers] at hr
      cases h.idle hso t _ hr
    | none => exact h.inserting_step hs hre hr

end Apart

theorem apartInv_of_steps {snapshot : ManagedSnapshot} {limits : ServerAdmissionLimits}
    (hr : system.Steps Apart (fromAuthorizationWithAdmission snapshot limits) s) : s.ApartInv :=
  hr.invariant (fun _ _ _ h hok hs => h.step hok hs)
    (apartInv_fromAuthorizationWithAdmission snapshot limits)

/-! ## The course of a call -/

/-- The vector and the counter of pools during a call that was made in `s₀`. -/
def VectorDuring (s₀ : TunnelRegistry) (next : ManagedSnapshot) (pools : List PoolId)
    (fresh : PoolId) : Option ReplaceTask → Prop
  | some (.awaitPools previous prepared) | some (.locked previous prepared)
  | some (.closing previous prepared _ _ _) | some (.taking previous prepared _ _ _) =>
    previous = s₀.authorization ∧ prepared.snapshot = next ∧
      pools = s₀.tunnelPools ∧ fresh = s₀.nextPool
  | _ =>
    pools = (rebuildPools next.tunnelIds
      (poolsById s₀.authorization.snapshot.tunnelIds s₀.tunnelPools) s₀.nextPool).1

/-- The connections of `pools` whose identity `next` removes. -/
def revokedIn (s₀ : TunnelRegistry) (next : ManagedSnapshot) (pools : List PoolId) :
    List ServerTunnel :=
  pools.flatMap fun p => (s₀.pools p).connectionsForIdentities
    (ManagedSnapshot.removedIdentities s₀.authorization.snapshot next)

/-- Pool `p` has the members it had in `s₀`, and they are open. -/
def Untouched (s₀ s : TunnelRegistry) (p : PoolId) : Prop :=
  (s.pools p).members = (s₀.pools p).members ∧
    ∀ m ∈ (s₀.pools p).members, s.closed m.connection = false

/-- The count of closed connections.  The pools that are still to be closed are as
the call found them. -/
def TallyDuring (s₀ : TunnelRegistry) (next : ManagedSnapshot) (s : TunnelRegistry) :
    Option ReplaceTask → Prop
  | some (.awaitPools _ _) | some (.locked _ _) => ∀ p, Untouched s₀ s p
  | some (.closing _ _ removed todo n) =>
    removed = ManagedSnapshot.removedIdentities s₀.authorization.snapshot next ∧
      ∃ visited, s₀.tunnelPools = visited ++ todo ∧ n = (revokedIn s₀ next visited).length ∧
        ∀ p ∈ todo, Untouched s₀ s p
  | some (.taking _ _ _ _ n) | some (.adopting _ _ n) | some (.adoptPush _ _ _ _ n)
  | some (.resetting _ n) => n = (revokedIn s₀ next s₀.tunnelPools).length
  | some (.finishing dispatch) =>
    dispatch.connectionsClosed = (revokedIn s₀ next s₀.tunnelPools).length
  | none =>
    ∃ streams, s.dispatches =
      s₀.dispatches ++ [⟨(revokedIn s₀ next s₀.tunnelPools).length, streams⟩]

/-- Where a member can be: before the members are taken, in the vector; while they
are taken, in a pool still to be visited; afterwards, only trusted ones are left. -/
def Home (pools : List PoolId) (authorization : SnapshotRef) :
    Option ReplaceTask → PoolId → ServerTunnel → Prop
  | some (.awaitPools _ _) | some (.locked _ _) | some (.closing _ _ _ _ _) => fun q _ => q ∈ pools
  | some (.taking _ _ todo _ _) => fun q _ => q ∈ todo
  | _ => fun _ c => c.clientIdentity ∈ authorization.snapshot.trusted

/-- How a call of `replace_authorization` with `next`, made in `s₀`, has come to `s`. -/
structure Course (s₀ : TunnelRegistry) (next : ManagedSnapshot) (s : TunnelRegistry) : Prop where
  installs : s.Installs next
  vector : VectorDuring s₀ next s.tunnelPools s.nextPool s.replace
  tally : TallyDuring s₀ next s s.replace
  undispatched : s.replace.isSome = true → s.dispatches = s₀.dispatches
  homes : ∀ q c, c ∈ (s.pools q).connections → Home s.tunnelPools s.authorization s.replace q c
  released : ∀ x ∈ s.releases, x ∈ s₀.releases ∨ x.1.clientIdentity ∉ next.trusted
  closed : ∀ c, c.clientIdentity ∈ next.trusted → s.closed c = s₀.closed c
  registers : s.registers = s₀.registers

section Course

variable {s₀ s s' : TunnelRegistry} {next : ManagedSnapshot} {a : Action}

variable {p : PoolId}

theorem Untouched.remove {w : Nat} {watcher : CloseWatcher} {admission' : TunnelConnectionAdmission}
    (h : Untouched s₀ s p) (ho : s.HasOwners) (hw : s.watchers w = some watcher)
    (hc : s.closed watcher.connection = true) : Untouched s₀ ({ s with
      watchers := Function.update s.watchers w none
      admission := admission' }.setPool watcher.pool
        ((s.pools watcher.pool).removeMember watcher.memberId).2) p := by
  refine ⟨?_, h.2⟩
  by_cases hp : p = watcher.pool
  · subst hp
    rw [← h.1]
    simp only [setPool, Function.update_self, ActiveClientPool.removeMember]
    refine List.filter_eq_self.mpr fun m hm => decide_eq_true ?_
    -- The member a watcher removes has closed; those of this pool are open.
    intro hid
    have hcl := ho.closed_of_removed hw hc hm hid
    rw [h.2 m (h.1 ▸ hm)] at hcl
    cases hcl
  · simp only [setPool, Function.update_of_ne hp]
    exact h.1

/-- Closing one pool's connections leaves the other pools alone. -/
theorem Untouched.close {q : PoolId} {removed : List ClientIdentity} {task : Option ReplaceTask}
    (h : Untouched s₀ s p) (ha : s.Accounted) (hpq : p ≠ q) :
    Untouched s₀ { s.close ((s.pools q).connectionsForIdentities removed) with replace := task }
      p := by
  refine ⟨h.1, fun m hm => ?_⟩
  have ho := h.2 m hm
  have hn : m.connection ∉ (s.pools q).connectionsForIdentities removed := by
    intro hme
    obtain ⟨x, hx, hxc⟩ :=
      mem_held_pool.mp (ActiveClientPool.mem_connectionsForIdentities.mp hme).1
    have hp : holding m.toTakenPoolMember ∈ s.held (.pool p) :=
      List.mem_map_of_mem (h.1.symm ▸ hm)
    have hs := ha.connections.site_eq (k := .pool p) (l := .pool q) hp hx hxc.symm
    exact hpq (by simpa using hs)
  show (s.closed m.connection || decide _) = false
  rw [ho, decide_eq_false hn]
  rfl

theorem TallyDuring.mono (hu : ∀ p, Untouched s₀ s p → Untouched s₀ s' p)
    (hd : s'.dispatches = s.dispatches) {task : Option ReplaceTask}
    (h : TallyDuring s₀ next s task) : TallyDuring s₀ next s' task := by
  unfold TallyDuring at h ⊢
  split at h
  · exact fun p => hu p (h p)
  · exact fun p => hu p (h p)
  · obtain ⟨hr, visited, hs, hn, ht⟩ := h
    exact ⟨hr, visited, hs, hn, fun p hp => hu p (ht p hp)⟩
  · exact h
  · exact h
  · exact h
  · exact h
  · exact h
  · rw [hd]
    exact h

theorem VectorDuring.replaceStep (hs : ReplaceStep s s')
    (h : VectorDuring s₀ next s.tunnelPools s.nextPool s.replace) :
    VectorDuring s₀ next s'.tunnelPools s'.nextPool s'.replace := by
  cases hs with
  | @rebuild previous prepared taken n hr =>
    rw [hr] at h
    obtain ⟨hpr, hn, hp, hf⟩ := h
    show (s.rebuilt previous prepared).1 = _
    rw [rebuilt, hpr, hn, hp, hf]
  | lock hr | commit hr | commitKeeping hr | closePool hr | closed hr | takePool hr
  | revoke hr | discard hr | adopt hr | push hr | unlock hr | reset hr | finish hr =>
    rw [hr] at h
    exact h

theorem revokedIn_append_singleton (pools : List PoolId) (p : PoolId) :
    (revokedIn s₀ next (pools ++ [p])).length = (revokedIn s₀ next pools).length +
      ((s₀.pools p).connectionsForIdentities
        (ManagedSnapshot.removedIdentities s₀.authorization.snapshot next)).length := by
  simp [revokedIn]

theorem connectionsForIdentities_congr {removed : List ClientIdentity} (h : Untouched s₀ s p) :
    (s.pools p).connectionsForIdentities removed =
      (s₀.pools p).connectionsForIdentities removed := by
  rw [ActiveClientPool.connectionsForIdentities, h.1]
  rfl

theorem revokedIn_eq_nil
    (h : ManagedSnapshot.removedIdentities s₀.authorization.snapshot next = [])
    (pools : List PoolId) : revokedIn s₀ next pools = [] := by
  rw [revokedIn, h]
  simp [ActiveClientPool.connectionsForIdentities]

theorem Course.tally_replaceStep (h : Course s₀ next s) (hi : s.ApartInv)
    (hs : ReplaceStep s s') : TallyDuring s₀ next s' s'.replace := by
  have ht := h.tally
  have hv := h.vector
  cases hs with
  | lock hr =>
    rw [hr] at ht
    exact ht
  | commit hr =>
    rw [hr] at ht hv
    obtain ⟨rfl, rfl, hp, -⟩ := hv
    exact ⟨rfl, [], hp.symm, rfl, fun p _ => ht p⟩
  | commitKeeping hr hni =>
    rw [hr] at hv
    obtain ⟨rfl, rfl, -, -⟩ := hv
    show 0 = _
    rw [revokedIn_eq_nil hni]
    rfl
  | @closePool previous prepared removed p todo n hr =>
    rw [hr] at ht hv
    obtain ⟨hre, visited, hsp, hn, hto⟩ := ht
    have hno : (visited ++ p :: todo).Nodup := by
      rw [← hsp, ← hv.2.2.1]
      exact hi.core.layout.nodup
    have hnt : p ∉ todo := (List.nodup_cons.mp (List.nodup_append.mp hno).2.1).1
    refine ⟨hre, visited ++ [p], by simpa using hsp, ?_, ?_⟩
    · rw [revokedIn_append_singleton, hn, hre,
        connectionsForIdentities_congr (hto p (.head _))]
    · intro q hq
      have hqp : q ≠ p := fun he => hnt (he ▸ hq)
      exact (hto q (List.mem_cons_of_mem p hq)).close hi.core.accounted hqp
  | closed hr =>
    rw [hr] at ht
    obtain ⟨-, visited, hsp, hn, -⟩ := ht
    rw [List.append_nil] at hsp
    show _ = _
    rw [hsp]
    exact hn
  | @finish dispatch hr =>
    rw [hr] at ht
    have hc : dispatch.connectionsClosed = _ := ht
    refine ⟨dispatch.streamsReset, ?_⟩
    rw [h.undispatched (by rw [hr]; rfl), ← hc]
  | takePool hr | rebuild hr | revoke hr | discard hr | adopt hr | push hr | unlock hr
  | reset hr =>
    rw [hr] at ht
    exact ht

theorem Course.homes_replaceStep (h : Course s₀ next s) (hi : s.ApartInv)
    (hs : ReplaceStep s s') :
    ∀ q c, c ∈ (s'.pools q).connections →
      Home s'.tunnelPools s'.authorization s'.replace q c := by
  intro q c hc
  have hh := h.homes q c
  cases hs with
  | takePool hr =>
    rw [hr] at hh
    rcases mem_setPool.mp hc with ⟨-, hn⟩ | ⟨hq, hc⟩
    · cases hn
    · exact (List.mem_cons.mp (hh hc)).resolve_left hq
  | rebuild hr =>
    rw [hr] at hh
    cases hh hc
  | adopt hr =>
    rw [hr] at hh
    rcases mem_setPool.mp hc with ⟨rfl, hc⟩ | ⟨-, hc⟩ <;> exact hh hc
  | @push prepared p member todo n hr =>
    have ht := (mem_of_poolFor
      (hi.placement.placed.pushing p member (by rw [hr]; rfl))).2
    rw [member.authenticated] at ht
    rw [hr] at hh
    rcases mem_setPool.mp hc with ⟨rfl, hc⟩ | ⟨-, hc⟩
    · rw [ActiveClientPool.connections_push, List.mem_append, List.mem_singleton] at hc
      rcases hc with hc | rfl
      · exact hh hc
      · exact ht
    · exact hh hc
  | lock hr | commit hr | commitKeeping hr | closePool hr | closed hr | revoke hr
  | discard hr | unlock hr | reset hr | finish hr =>
    rw [hr] at hh
    exact hh hc

theorem Course.released_replaceStep (h : Course s₀ next s) (hiv : s.ApartInv)
    (hs : ReplaceStep s s') :
    ∀ x ∈ s'.releases, x ∈ s₀.releases ∨ x.1.clientIdentity ∉ next.trusted := by
  intro x hx
  cases hs with
  | @revoke prepared member todo n hr hi =>
    rcases List.mem_cons.mp hx with rfl | hx
    · right
      have hre := hiv.core.layout.remembers
      have hin := h.installs
      rw [hr] at hre
      rw [Installs, hr] at hin
      rw [← member.authenticated, ← hin, ← hre.1, ManagedSnapshot.mem_trusted]
      rintro ⟨i, hi'⟩
      rw [hi] at hi'
      cases hi'
    · exact h.released x hx
  | _ => exact h.released x hx

theorem Course.closed_replaceStep (h : Course s₀ next s) (hs : ReplaceStep s s') :
    ∀ c, c.clientIdentity ∈ next.trusted → s'.closed c = s₀.closed c := by
  intro c ht
  cases hs with
  | @closePool previous prepared removed p todo n hr =>
    have hta := h.tally
    rw [hr] at hta
    obtain ⟨rfl, -⟩ := hta
    have hn : c ∉ (s.pools p).connectionsForIdentities
        (ManagedSnapshot.removedIdentities s₀.authorization.snapshot next) := by
      intro hm
      have hre := (ActiveClientPool.mem_connectionsForIdentities.mp hm).2
      exact (ManagedSnapshot.mem_removedIdentities.mp hre).2 ht
    show (s.closed c || decide _) = s₀.closed c
    rw [decide_eq_false hn, Bool.or_false]
    exact h.closed c ht
  | _ => exact h.closed c ht

theorem dispatches_replaceStep (hs : ReplaceStep s s') (hso : s'.replace.isSome = true) :
    s'.dispatches = s.dispatches := by
  cases hs with
  | finish => cases hso
  | _ => rfl

theorem Course.step (h : Course s₀ next s) (hi : s.ApartInv) (hm : CallMove s a s') :
    Course s₀ next s' := by
  cases hm with
  | other hs hcl hre hd =>
    refine ⟨?_, ?_, ?_, ?_, ?_, ?_, ?_, hre.trans h.registers⟩
    · have his := h.installs
      unfold Installs at his ⊢
      rw [hs.replace, hs.authorization]
      exact his
    · rw [hs.tunnelPools, hs.nextPool, hs.replace]
      exact h.vector
    · rw [hs.replace]
      refine h.tally.mono (fun p hp => ⟨?_, ?_⟩) hd
      · rw [hs.members p]
        exact hp.1
      · rw [hcl]
        exact hp.2
    · rw [hs.replace, hd]
      exact h.undispatched
    · intro q c hc
      rw [hs.tunnelPools, hs.authorization, hs.replace]
      exact h.homes q c (hs.connections q ▸ hc)
    · rw [hs.releases]
      exact h.released
    · rw [hcl]
      exact h.closed
  | remove hw hc =>
    refine ⟨h.installs, h.vector, ?_, h.undispatched, ?_, h.released, h.closed, h.registers⟩
    · exact h.tally.mono (fun p hp => hp.remove hi.placement.owners hw hc) rfl
    · intro q c hc
      exact h.homes q c (mem_of_mem_removeMember (s := s) hc)
  | release =>
    refine ⟨h.installs, h.vector, ?_, h.undispatched, h.homes, ?_, h.closed, h.registers⟩
    · exact h.tally.mono (fun p hp => hp) rfl
    · intro x hx
      exact h.released x (List.mem_of_mem_erase hx)
  | replace hr =>
    exact
      { installs := h.installs.replaceStep hr
        vector := h.vector.replaceStep hr
        tally := h.tally_replaceStep hi hr
        undispatched := fun hso =>
          (dispatches_replaceStep hr hso).trans (h.undispatched hr.isSome)
        homes := h.homes_replaceStep hi hr
        released := h.released_replaceStep hi hr
        closed := h.closed_replaceStep hr
        registers := (registers_replaceStep hr).trans h.registers }

theorem ApartInv.mem_tunnelPools (h : s.ApartInv) (hn : s.replace = none) {c : ServerTunnel}
    (hc : c ∈ (s.pools p).connections) (ho : s.closed c = false) :
    poolFor s.authorization.snapshot s.tunnelPools c.clientIdentity = some p := by
  have hp := h.placement.placed.member p c hc ho
  rwa [WillBePlaced, hn] at hp

theorem NoClose.open (h : s.NoClose) (hi : s.ApartInv) {m : PoolMember}
    (hm : m ∈ (s.pools p).members) : s.closed m.connection = false :=
  h p (hi.core.allocated.member p _ (ActiveClientPool.mem_connections.mpr ⟨m, hm, rfl⟩)) m hm

theorem course_beginReplace (hi : s₀.ApartInv) (hn : s₀.replace = none)
    (hcl : s₀.NoClose) (next : ManagedSnapshot) :
    Course s₀ next (s₀.beginReplace next) where
  installs := rfl
  vector := ⟨rfl, rfl, rfl, rfl⟩
  tally p := ⟨rfl, fun _ hm => hcl.open hi hm⟩
  undispatched _ := rfl
  homes q c hc := by
    obtain ⟨m, hm, rfl⟩ := ActiveClientPool.mem_connections.mp hc
    exact (mem_of_poolFor (hi.mem_tunnelPools hn hc (hcl.open hi hm))).1
  released _ hx := .inl hx
  closed _ _ := rfl
  registers := rfl

end Course

/-! ## What is carried along -/

/-- A connection with its stream counter and its permit. -/
def cargo (m : TakenPoolMember) : ServerTunnel × Nat × TunnelConnectionPermit :=
  (m.connection, m.activeStreams, m.admissionPermit)

/-- A connection with its counter and its permit is in a pool or on the way to one, or
its permit is left to the task that waits for the connection to close. -/
inductive Carries (s : TunnelRegistry) (x : ServerTunnel × Nat × TunnelConnectionPermit) :
    Prop where
  | member : m ∈ (s.pools p).members → cargo m.toTakenPoolMember = x → Carries s x
  | detached : m ∈ detached s.replace → cargo m = x → Carries s x
  | released : (x.1, x.2.2) ∈ s.releases → Carries s x

/-- A step of a task that has seen connection `c` close. -/
def SeesClosed (s : TunnelRegistry) (c : ServerTunnel) : Action → Prop
  | .runWatcher w => ∃ watcher, s.watchers w = some watcher ∧ watcher.connection = c
  | .runRelease d _ => d = c
  | _ => False

section Carries

variable {s s' : TunnelRegistry} {x : ServerTunnel × Nat × TunnelConnectionPermit} {a : Action}

theorem Carries.live (h : Carries s x) (ha : s.Accounted) : x.2.2 ∈ s.admission.live := by
  cases h with
  | @member p m hm hx =>
    subst hx
    exact ha.live (.pool p) _ (List.mem_map_of_mem hm)
  | @detached m hm hx =>
    subst hx
    exact ha.live .detached _ (List.mem_map_of_mem hm)
  | released hme => exact ha.live .released _ hme

/-- A replacement hands over what it takes. -/
theorem Carries.replaceStep (h : Carries s x) (hl : s.Layout) (hs : ReplaceStep s s') :
    Carries s' x := by
  cases hs with
  | lock hr | commit hr | commitKeeping hr | closePool hr | closed hr | rebuild hr
  | unlock hr | reset hr | finish hr =>
    cases h with
    | member hm hx => exact .member hm hx
    | detached hm hx =>
      rw [hr] at hm
      exact .detached hm hx
    | released hme => exact .released hme
  | @takePool previous next p todo taken n hr =>
    cases h with
    | @member q m hm hx =>
      by_cases hq : q = p
      · subst hq
        exact .detached (List.mem_append_right taken (List.mem_map_of_mem hm)) hx
      · exact .member (mem_members_setPool.mpr (.inr ⟨hq, hm⟩)) hx
    | detached hm hx =>
      rw [hr] at hm
      exact .detached (List.mem_append_left _ hm) hx
    | released hme => exact .released hme
  | revoke hr =>
    cases h with
    | member hm hx => exact .member hm hx
    | detached hm hx =>
      rw [hr] at hm
      rcases List.mem_cons.mp hm with rfl | hm
      · subst hx
        exact .released (.head _)
      · exact .detached hm hx
    | released hme => exact .released (.tail _ hme)
  | discard hr hi hp => exact absurd hp (hl.getElem?_ne_none hr hi)
  | @adopt next member todo n i p hr hi hp =>
    cases h with
    | @member q m hm hx =>
      have hk := @pools_setPool_congr s p ((s.pools p).beginAdopt member s.nextWatcher).2 _
        ActiveClientPool.members rfl q
      exact .member (p := q) (hk.symm ▸ hm) hx
    | detached hm hx =>
      rw [hr] at hm
      rcases List.mem_cons.mp hm with rfl | hm
      · exact .detached (.head _) hx
      · exact .detached (.tail _ hm) hx
    | released hme => exact .released hme
  | @push next p member todo n hr =>
    cases h with
    | member hm hx => exact .member ((mem_members_setPool_concat rfl).mpr (.inl hm)) hx
    | detached hm hx =>
      rw [hr] at hm
      rcases List.mem_cons.mp hm with rfl | hm
      · exact .member (m := member) ((mem_members_setPool_concat rfl).mpr (.inr ⟨rfl, rfl⟩)) hx
      · exact .detached hm hx
    | released hme => exact .released hme

theorem Carries.same (h : Carries s x) (hs : SamePools s s') : Carries s' x := by
  cases h with
  | member hm hx => exact .member (by rw [hs.members]; exact hm) hx
  | detached hm hx => exact .detached (by rw [hs.replace]; exact hm) hx
  | released hme => exact .released (by rw [hs.releases]; exact hme)

variable {admission' : TunnelConnectionAdmission}

theorem Carries.insert {t : Nat} {c : ServerTunnel} {p : PoolId} {member : PoolMember}
    {pool : ActiveClientPool} (h : Carries s x) (hok : s.Inserts p c member pool admission') :
    Carries (s.inserted t p member pool admission' c) x := by
  obtain ⟨-, -, -, -, -, hme, -⟩ := ActiveClientPool.tryRegister_eq_ok hok
  cases h with
  | @member q m hm hx =>
    exact .member (p := q) ((mem_members_setPool_concat (s := s) hme).mpr (.inl hm)) hx
  | detached hm hx => exact .detached hm hx
  | released hmm => exact .released hmm

/-- A close watcher lets go of its own member only. -/
theorem Carries.remove {w k : Nat} {p : PoolId} (h : Carries s x) : Carries ({ s with
      watchers := Function.update s.watchers w none
      admission := admission' }.setPool p ((s.pools p).removeMember k).2) x ∨
      ∃ m ∈ ((s.pools p).removeMember k).1, cargo m.toTakenPoolMember = x := by
  cases h with
  | @member q m hm hx =>
    by_cases hq : q = p
    · subst hq
      by_cases hid : m.memberId = k
      · exact .inr ⟨m, List.mem_filter.mpr ⟨hm, decide_eq_true hid⟩, hx⟩
      · have hme := ActiveClientPool.mem_removeMember.mpr ⟨hm, hid⟩
        exact .inl (.member (mem_members_setPool.mpr (.inl ⟨rfl, hme⟩)) hx)
    · exact .inl (.member (mem_members_setPool.mpr (.inr ⟨hq, hm⟩)) hx)
  | detached hm hx => exact .inl (.detached hm hx)
  | released hme => exact .inl (.released hme)

theorem Carries.release {c : ServerTunnel} {permit : TunnelConnectionPermit} (h : Carries s x) :
    Carries { s with
      releases := s.releases.erase (c, permit)
      admission := admission' } x ∨ (x.1, x.2.2) = (c, permit) := by
  cases h with
  | member hm hx => exact .inl (.member hm hx)
  | detached hm hx => exact .inl (.detached hm hx)
  | released hme =>
    by_cases he : (x.1, x.2.2) = (c, permit)
    · exact .inr he
    · exact .inl (.released ((List.mem_erase_of_ne he).mpr hme))

theorem Carries.start {next : ManagedSnapshot} (h : Carries s x) (hn : s.replace = none) :
    Carries (s.beginReplace next) x := by
  cases h with
  | member hm hx => exact .member hm hx
  | detached hm hx =>
    rw [hn] at hm
    cases hm
  | released hme => exact .released hme

/-- Only a task that has seen the connection close lets go of it. -/
theorem Carries.step (h : Carries s x) (hl : s.Layout) (ho : s.HasOwners)
    (hs : PoolsStep s a s') (hn : ¬ s.SeesClosed x.1 a) : Carries s' x := by
  cases hs with
  | same hsa => exact h.same hsa
  | insert _ hok => exact h.insert hok
  | @remove w watcher hw hc =>
    rcases h.remove with hk | ⟨m, hm, hx⟩
    · exact hk
    · obtain ⟨hm, hid⟩ := List.mem_filter.mp hm
      have hco := ho.connection_of_memberId hw hm (of_decide_eq_true hid)
      exact absurd ⟨watcher, hw, hco.symm.trans (congrArg Prod.fst hx)⟩ hn
  | release =>
    rcases h.release with hk | he
    · exact hk
    · exact absurd (congrArg Prod.fst he).symm hn
  | start hr => exact h.start hr
  | replace hre => exact h.replaceStep hl hre

end Carries

/-! ## What a call leaves behind -/

/-- The `match` of `commit_authorization` on the two continuities.  The arm that is
`unreachable!` answers `none`. -/
def rematch (pools : List PoolId) (fresh : PoolId) :
    AuthorizationContinuity → AuthorizationContinuity → Option (List PoolId × PoolId)
  | .managed previousIds, .managed nextIds =>
    some (rebuildPools nextIds (poolsById previousIds pools) fresh)
  | _, _ => none

theorem rematch_eq (s : TunnelRegistry) (previous next : SnapshotRef) :
    rematch s.tunnelPools s.nextPool previous.snapshot.val.continuity
      next.snapshot.val.continuity = some (s.rebuilt previous next) := by
  obtain ⟨ids, hi, -⟩ := previous.snapshot.property.continuity
  obtain ⟨ids', hi', -⟩ := next.snapshot.property.continuity
  rw [rebuilt, ManagedSnapshot.tunnelIds, ManagedSnapshot.tunnelIds, hi, hi']
  rfl

/-- What a call of `replace_authorization` with `next`, made in `s₀`, leaves behind. -/
structure Conserved (s₀ : TunnelRegistry) (next : ManagedSnapshot) (s : TunnelRegistry) :
    Prop where
  /-- There is one pool for every Tunnel. -/
  length : s.tunnelPools.length = next.val.tunnelCount
  /-- A Tunnel ID of both snapshots keeps its pool, at whatever index. -/
  samePool : ∀ id (i j : Nat), s₀.authorization.snapshot.tunnelIds[i]? = some id →
    next.tunnelIds[j]? = some id → ∃ p, s₀.tunnelPools[i]? = some p ∧ s.tunnelPools[j]? = some p
  /-- A member whose identity stays trusted is open and in the pool of its identity,
  with its counter and its permit, and nowhere else. -/
  kept : ∀ p, ∀ m ∈ (s₀.pools p).members, m.clientIdentity ∈ next.trusted →
    s.closed m.connection = false ∧
      ∃ q, poolFor next s.tunnelPools m.clientIdentity = some q ∧
        ∃ m' ∈ (s.pools q).members, cargo m'.toTakenPoolMember = cargo m.toTakenPoolMember ∧
          ∀ q', ∀ m'' ∈ (s.pools q').members, m''.connection = m.connection → q' = q ∧ m'' = m'
  /-- A member whose identity is removed has closed and is in no pool. -/
  revoked : ∀ p, ∀ m ∈ (s₀.pools p).members, m.clientIdentity ∉ next.trusted →
    s.closed m.connection = true ∧ ∀ q, m.connection ∉ (s.pools q).connections
  /-- The call reports the number of members whose identity is removed. -/
  counted : ∃ streamsReset, s.dispatches = s₀.dispatches ++
    [⟨((s₀.tunnelPools.flatMap fun p => (s₀.pools p).members).filter fun m =>
      decide (m.clientIdentity ∈ ManagedSnapshot.removedIdentities
        s₀.authorization.snapshot next)).length, streamsReset⟩]

theorem length_revokedIn (s₀ : TunnelRegistry) (next : ManagedSnapshot) (pools : List PoolId) :
    (revokedIn s₀ next pools).length =
      ((pools.flatMap fun p => (s₀.pools p).members).filter fun m =>
        decide (m.clientIdentity ∈ ManagedSnapshot.removedIdentities
          s₀.authorization.snapshot next)).length := by
  induction pools with
  | nil => rfl
  | cons p pools ih =>
    simp only [revokedIn, List.flatMap_cons, List.length_append, List.filter_append] at ih ⊢
    rw [ih]
    simp [ActiveClientPool.connectionsForIdentities]

/-- Such a task waits until the connection has closed. -/
theorem closed_of_seesClosed {c : ServerTunnel} (hse : s.SeesClosed c a)
    (hs : system.step s a = some s') : s.closed c = true := by
  cases a with
  | runWatcher w =>
    obtain ⟨watcher, hw, rfl⟩ := hse
    change s.runWatcher w = some s' at hs
    rw [runWatcher, hw] at hs
    exact (Option.ite_none_right_eq_some.mp hs).1
  | runRelease d permit =>
    obtain rfl : d = c := hse
    exact (Option.ite_none_right_eq_some.mp hs).1.2
  | _ => cases hse

/-- What is known of a call of `replace_authorization` that does not overlap with
another, made in `s₀`. -/
structure Called (s₀ : TunnelRegistry) (next : ManagedSnapshot) : Prop where
  inv : s₀.ApartInv
  idle : s₀.replace = none
  noClose : s₀.NoClose
  begun : (s₀.beginReplace next).ApartInv

section Call

variable {s₀ s : TunnelRegistry} {next : ManagedSnapshot}

theorem Called.steps (h : Called s₀ next) (hca : system.Steps InCall (s₀.beginReplace next) s) :
    s.ApartInv ∧ Course s₀ next s := by
  refine hca.invariant (I := fun s => s.ApartInv ∧ Course s₀ next s) ?_
    ⟨h.begun, course_beginReplace h.inv h.idle h.noClose next⟩
  rintro s a s' ⟨hi, hc⟩ hin hs
  exact ⟨hi.step hin.2 hs, hc.step hi (callMove_of_step hin hs)⟩

variable {p : PoolId} {m : PoolMember}

/-- A member whose identity stays trusted stays open. -/
theorem Course.open (h : Course s₀ next s) (hc : Called s₀ next) (hm : m ∈ (s₀.pools p).members)
    (ht : m.clientIdentity ∈ next.trusted) : s.closed m.connection = false := by
  rw [h.closed _ (m.authenticated ▸ ht)]
  exact hc.noClose.open hc.inv hm

theorem Called.carries (h : Called s₀ next) (hm : m ∈ (s₀.pools p).members)
    (ht : m.clientIdentity ∈ next.trusted) (hcl : system.Steps InCall (s₀.beginReplace next) s) :
    Carries s (cargo m.toTakenPoolMember) := by
  refine (hcl.invariant
    (I := fun s => (s.ApartInv ∧ Course s₀ next s) ∧ Carries s (cargo m.toTakenPoolMember)) ?_
    ⟨⟨h.begun, course_beginReplace h.inv h.idle h.noClose next⟩, .member hm rfl⟩).2
  rintro s a s' ⟨⟨hi, hc⟩, hca⟩ hin hs
  refine ⟨⟨hi.step hin.2 hs, hc.step hi (callMove_of_step hin hs)⟩, ?_⟩
  refine hca.step hi.core.layout hi.placement.owners (poolsStep_of_step hs) ?_
  intro hse
  cases (hc.open h hm ht).symm.trans (closed_of_seesClosed hse hs)

/-- A Tunnel ID of both snapshots keeps its pool. -/
theorem Called.samePool (h : Called s₀ next) (hv : VectorDuring s₀ next s.tunnelPools s.nextPool
    none) {id : TunnelId} {i j : Nat} (hi : s₀.authorization.snapshot.tunnelIds[i]? = some id)
    (hj : next.tunnelIds[j]? = some id) :
    ∃ p, s₀.tunnelPools[i]? = some p ∧ s.tunnelPools[j]? = some p := by
  have ha := h.inv.aligned
  rw [h.idle] at ha
  have hl : s₀.tunnelPools.length = s₀.authorization.snapshot.tunnelIds.length := ha
  have hlt : i < s₀.tunnelPools.length := hl ▸ (List.getElem?_eq_some_iff.mp hi).1
  refine ⟨s₀.tunnelPools[i], List.getElem?_eq_getElem hlt, ?_⟩
  rw [show s.tunnelPools = _ from hv]
  exact getElem?_rebuildPools next.tunnelIds_nodup hj
    (lookup_poolsById (ManagedSnapshot.tunnelIds_nodup _) hl hi (List.getElem?_eq_getElem hlt))

/-- What is carried for a trusted identity has arrived in its pool when the call ends. -/
theorem Called.kept (h : Called s₀ next) (hin : s.ApartInv) (hco : Course s₀ next s)
    (hno : s.replace = none) (hm : m ∈ (s₀.pools p).members) (ht : m.clientIdentity ∈ next.trusted)
    (hca : Carries s (cargo m.toTakenPoolMember)) :
    ∃ q, poolFor next s.tunnelPools m.clientIdentity = some q ∧
      ∃ m' ∈ (s.pools q).members, cargo m'.toTakenPoolMember = cargo m.toTakenPoolMember ∧
        ∀ q', ∀ m'' ∈ (s.pools q').members, m''.connection = m.connection → q' = q ∧ m'' = m' := by
  have ha := hin.core.accounted
  have hi := hco.installs
  rw [Installs, hno] at hi
  cases hca with
  | @member q m' hm' hx =>
    have hc : m'.connection = m.connection := congrArg Prod.fst hx
    have hme : m.connection ∈ (s.pools q).connections :=
      ActiveClientPool.mem_connections.mpr ⟨m', hm', hc⟩
    have hf := hin.mem_tunnelPools hno hme (hco.open h hm ht)
    rw [show s.authorization.snapshot = next from hi, ← m.authenticated] at hf
    refine ⟨q, hf, m', hm', hx, fun q' m'' hm'' hc'' => ?_⟩
    have hat : holding m'.toTakenPoolMember ∈ s.held (.pool q) := List.mem_map_of_mem hm'
    have hat' : holding m''.toTakenPoolMember ∈ s.held (.pool q') := List.mem_map_of_mem hm''
    have hs := ha.connections.site_eq hat' hat (hc''.trans hc.symm)
    cases hs
    refine ⟨rfl, ?_⟩
    have hn := ha.connections.nodup (.pool q)
    rw [held, List.map_map] at hn
    exact List.inj_on_of_nodup_map hn hm'' hm' (hc''.trans hc.symm)
  | detached hd =>
    rw [hno] at hd
    cases hd
  | released hme =>
    rcases hco.released _ hme with hold | hun
    · have hat : holding m.toTakenPoolMember ∈ s₀.held (.pool p) := List.mem_map_of_mem hm
      have hr : holding m.toTakenPoolMember ∈ s₀.held .released := hold
      cases h.inv.core.accounted.connections.site_eq hat hr rfl
    · exact absurd (m.authenticated ▸ ht) hun

/-- A member whose identity is removed has closed when the call ends. -/
theorem Called.revoked (h : Called s₀ next) (hin : s.ApartInv) (hco : Course s₀ next s)
    (hn : s.replace = none) (hm : m ∈ (s₀.pools p).members)
    (hun : m.clientIdentity ∉ next.trusted) :
    s.closed m.connection = true ∧ ∀ q, m.connection ∉ (s.pools q).connections := by
  have hi := hco.installs
  rw [Installs, hn] at hi
  have hun' : m.connection.clientIdentity ∉ s.authorization.snapshot.trusted := by
    rw [show s.authorization.snapshot = next from hi, ← m.authenticated]
    exact hun
  constructor
  · have hr := h.inv.core.accounted.registered (.pool p) _
      (List.mem_map_of_mem (f := fun m : PoolMember => holding m.toTakenPoolMember) hm)
    rw [← hco.registers] at hr
    cases hc : s.closed m.connection with
    | true => rfl
    | false =>
      obtain ⟨q, -, hf⟩ := hin.placement.placed.exists_poolFor hn hr hc
      exact absurd (mem_of_poolFor hf).2 hun'
  · intro q hq
    have hh := hco.homes q _ hq
    rw [hn] at hh
    exact hun' hh

theorem Called.conserved (h : Called s₀ next)
    (hca : system.Steps InCall (s₀.beginReplace next) s) (hn : s.replace = none) :
    Conserved s₀ next s := by
  obtain ⟨hin, hc⟩ := h.steps hca
  have hv := hc.vector
  have hta := hc.tally
  rw [hn] at hv hta
  refine ⟨?_, fun id i j hi hj => h.samePool hv hi hj, ?_, ?_, ?_⟩
  · rw [show s.tunnelPools = _ from hv, length_rebuildPools, next.length_tunnelIds]
  · intro p m hm ht
    exact ⟨hc.open h hm ht,
      h.kept hin hc hn hm ht (h.carries hm ht hca)⟩
  · intro p m hm hun
    exact h.revoked hin hc hn hm hun
  · rw [← length_revokedIn]
    exact hta

end Call

/-- A permit that is held stays live until a task has seen its connection close. -/
theorem live_of_steps {s₁ : TunnelRegistry} {x : ServerTunnel × Nat × TunnelConnectionPermit}
    (hc : s₁.CoreInv) (ho : s₁.HasOwners) (hx : Carries s₁ x)
    (hr : system.Steps (fun s a => ¬ s.SeesClosed x.1 a) s₁ s) : x.2.2 ∈ s.admission.live := by
  have hi := hr.invariant (I := fun s => s.CoreInv ∧ s.HasOwners ∧ Carries s x) ?_
    ⟨hc, ho, hx⟩
  · exact hi.2.2.live hi.1.accounted
  · rintro s a s' ⟨hc, ho, hx⟩ hn hst
    have hs := poolsStep_of_step hst
    exact ⟨hc.step hs, ho.step hs, hx.step hc.layout ho hs hn⟩

/-- In every run in which registrations, closes of members and replacements do not
overlap, a call of `replace_authorization` with an invalid input changes nothing, and one
with a valid input conserves the pools, the members and their permits. -/
theorem realignment_conserves (snapshot : ManagedSnapshot) (limits : ServerAdmissionLimits)
    (s₀ s₁ : TunnelRegistry)
    (hrun : system.Steps Apart (fromAuthorizationWithAdmission snapshot limits) s₀)
    (serverHostname : ServerHostname) (tunnels : List ServerTunnelConfig)
    (hok : s₀.Apart (.replaceAuthorization serverHostname tunnels))
    (hcall : system.step s₀ (.replaceAuthorization serverHostname tunnels) = some s₁) :
    (∀ e, s₀.authorization.snapshot.val.prepareManagedReplacement serverHostname tunnels =
        .error e → s₁ = s₀) ∧
      ∀ next : ManagedSnapshot,
        s₀.authorization.snapshot.val.prepareManagedReplacement serverHostname tunnels =
          .ok next.val →
        (∀ s, system.Steps InCall s₁ s →
          (s.replace = none → Conserved s₀ next s) ∧
          (∀ p, ∀ m ∈ (s₀.pools p).members, m.clientIdentity ∈ next.trusted →
            m.admissionPermit ∈ s.admission.live) ∧
          (∀ previous prepared taken n,
            s.replace = some (.taking previous prepared [] taken n) →
            rematch s.tunnelPools s.nextPool previous.snapshot.val.continuity
              prepared.snapshot.val.continuity ≠ none)) ∧
        ∀ p, ∀ m ∈ (s₀.pools p).members, ∀ s,
          system.Steps (fun s a => ¬ s.SeesClosed m.connection a) s₁ s →
          m.admissionPermit ∈ s.admission.live := by
  have hi := apartInv_of_steps hrun
  have hb := hi.step hok hcall
  have hst : s₀.startReplace serverHostname tunnels = some s₁ := hcall
  rw [ManagedSnapshot.prepareManagedReplacement_eq]
  unfold startReplace at hst
  split at hst
  · cases hst
  · next hno =>
    split at hst
    · next her =>
      cases hst
      refine ⟨fun _ _ => rfl, fun next hn => ?_⟩
      rw [her] at hn
      cases hn
    · next snapshot' hsn =>
      cases hst
      rw [hsn]
      refine ⟨fun e he => (by cases he), fun next hn => ?_⟩
      obtain rfl : snapshot' = next := Subtype.ext (Except.ok.inj hn)
      have hc : Called s₀ snapshot' := ⟨hi, hno, hok.2, hb⟩
      refine ⟨fun s hs => ⟨hc.conserved hs, ?_, ?_⟩, ?_⟩
      · intro p m hm ht
        exact (hc.carries hm ht hs).live (hc.steps hs).1.core.accounted
      · intro previous prepared taken n _
        rw [rematch_eq]
        exact Option.some_ne_none _
      · intro p m hm s hs
        exact live_of_steps (x := cargo m.toTakenPoolMember) hb.core
          hb.placement.owners (.member hm rfl) hs

/-- Two Tunnels with one connection each. -/
def twoTunnels : List Action :=
  replaceFor [sampleTunnel "a" [sampleIdentity 1], sampleTunnel "b" [sampleIdentity 2]] 6 ++
    registerFor (sampleIdentity 1) 0 ++ registerFor (sampleIdentity 2) 1

/-- The Tunnels change places and the second one loses its Client. -/
def reordered : List ServerTunnelConfig :=
  [sampleTunnel "b" [], sampleTunnel "a" [sampleIdentity 1]]

theorem realignment_conserves_reordered :
    ∃ s₀ s₁ s next,
      system.Steps Apart (fromAuthorizationWithAdmission .empty {}) s₀ ∧
      system.step s₀ (.replaceAuthorization ⟨"tunnel.example.test"⟩ reordered) = some s₁ ∧
      system.Steps InCall s₁ s ∧ (s₀.pools 0).members ≠ [] ∧ (s₀.pools 1).members ≠ [] ∧
      Conserved s₀ next s := by
  have he : ∃ s₀ ∈ system.execWhile Apart (fromAuthorizationWithAdmission .empty {}) twoTunnels,
      (s₀.pools 0).members ≠ [] ∧ (s₀.pools 1).members ≠ [] ∧
      s₀.Apart (.replaceAuthorization ⟨"tunnel.example.test"⟩ reordered) ∧
      ∃ s₁ ∈ system.step s₀ (.replaceAuthorization ⟨"tunnel.example.test"⟩ reordered),
        ∃ s ∈ system.execWhile InCall s₁ (List.replicate 14 .pollReplace),
          s.replace.isNone = true := by
    decide
  obtain ⟨s₀, h₀, ha, hb, hok, s₁, h₁, s, hs, hno⟩ := he
  have hr := Lts.Steps.of_execWhile h₀
  have hc := Lts.Steps.of_execWhile hs
  obtain ⟨-, hv⟩ := realignment_conserves _ _ s₀ s₁ hr _ _ hok h₁
  cases hn : ManagedSnapshot.ofTunnels ⟨"tunnel.example.test"⟩ reordered with
  | error e =>
    have hne : (ManagedSnapshot.ofTunnels ⟨"tunnel.example.test"⟩ reordered).toOption ≠ none := by
      decide
    rw [hn] at hne
    exact absurd rfl hne
  | ok next =>
    have hp := s₀.authorization.snapshot.prepareManagedReplacement_eq
      ⟨"tunnel.example.test"⟩ reordered
    rw [hn] at hp
    exact ⟨s₀, s₁, s, next, hr, h₁, hc, ha, hb,
      ((hv next hp).1 s hc).1 (Option.isNone_iff_eq_none.mp hno)⟩

end TunnelRegistry

end Runewarp.Server
