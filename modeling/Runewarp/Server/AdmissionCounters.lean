import Runewarp.Lib.KeyCounts
import Runewarp.Server.CloseWatchers

/-!
# The counters of Tunnel-connection admission

`TunnelConnectionAdmission` keeps two counters under one mutex, the active connections and
the active connections of each identity.  A permit goes with its member: from a
registration into a pool, out of it and into another when authorization is realigned, to
the task that waits for a revoked connection, and with a future that is dropped.  Wherever
it is when it is dropped, it takes one from both counters.

`Counted` says what the counters are, in terms of the permits that live, and `Owned` that
those are the permits somebody holds.  Together with `Accounted`, which says that nobody
holds one twice, the counters are the permits that are held.
-/

namespace Runewarp.Server

open KeyCounts

namespace TunnelConnectionAdmission

variable {a a' : TunnelConnectionAdmission} {permit : TunnelConnectionPermit} {c : ClientIdentity}

/-- The identities of the live permits. -/
def identities (a : TunnelConnectionAdmission) : List ClientIdentity :=
  a.live.map (·.clientIdentity)

/-- The counters are those of the live permits, and within the limits. -/
structure Counted (a : TunnelConnectionAdmission) : Prop where
  active : a.active = a.live.length
  byIdentity : Counts a.activeByIdentity fun c => a.identities.count c
  global : a.active ≤ a.limits.maxTunnelConnections
  perIdentity : ∀ c, a.identities.count c ≤ a.limits.maxTunnelConnectionsPerIdentity

theorem counted_new (limits : ServerAdmissionLimits) : Counted { limits } where
  active := rfl
  byIdentity := counts_empty
  global := Nat.zero_le _
  perIdentity _ := Nat.zero_le _

theorem Counted.tryAcquire (h : a.Counted) (hok : a.tryAcquire c = .ok (permit, a')) :
    a'.Counted := by
  unfold TunnelConnectionAdmission.tryAcquire at hok
  split at hok
  next => cases hok
  next hg =>
    dsimp only at hok
    split at hok
    next => cases hok
    next hi =>
      cases hok
      rw [h.byIdentity.getD] at hi
      have hs : (c :: a.identities).count c = a.identities.count c + 1 := List.count_cons_self
      have ho : ∀ d, d ≠ c → (c :: a.identities).count d = a.identities.count d :=
        fun d hd => List.count_cons_of_ne (Ne.symm hd)
      refine ⟨?_, h.byIdentity.increment hs ho, ?_, fun d => ?_⟩
      · simp [h.active]
      · dsimp only
        omega
      · change (c :: a.identities).count d ≤ _
        by_cases hd : d = c
        · subst hd
          dsimp only
          omega
        · rw [ho d hd]
          exact h.perIdentity d

/-- `Drop for TunnelConnectionPermit` with its subtractions checked. -/
def checkedRelease (a : TunnelConnectionAdmission) (permit : TunnelConnectionPermit) :
    Option TunnelConnectionAdmission :=
  if a.active = 0 ∨ a.activeByIdentity.lookup permit.clientIdentity = some 0 then none
  else some (a.release permit)

theorem release_eq (a : TunnelConnectionAdmission) (permit : TunnelConnectionPermit) :
    a.release permit = { a with
      active := a.active - 1
      live := a.live.erase permit
      activeByIdentity := decrement a.activeByIdentity permit.clientIdentity } := by
  unfold release decrement
  cases hl : a.activeByIdentity.lookup permit.clientIdentity <;> simp [hl]

theorem Counted.release (h : a.Counted) (hl : permit ∈ a.live) :
    (a.release permit).Counted ∧ a.checkedRelease permit = some (a.release permit) := by
  obtain ⟨ha, hby, hg, hpe⟩ := h
  have hp := List.perm_cons_erase hl
  have hi : a.identities.Perm (permit.clientIdentity :: (a.live.erase permit).map
      (·.clientIdentity)) := hp.map _
  have hc : ∀ d, a.identities.count d = (permit.clientIdentity :: (a.live.erase permit).map
      (·.clientIdentity)).count d := fun d => hi.count_eq d
  have hpo : a.live.length = (a.live.erase permit).length + 1 := hp.length_eq
  refine ⟨?_, ?_⟩
  · rw [release_eq]
    refine ⟨?_, hby.decrement (g := fun d => ((a.live.erase permit).map (·.clientIdentity)).count d)
      ?_ fun d hd => ?_, ?_, fun d => ?_⟩
    · dsimp only
      omega
    · rw [hc, List.count_cons_self]
    · rw [hc, List.count_cons_of_ne (Ne.symm hd)]
    · dsimp only
      omega
    · have hle := hpe d
      rw [hc, List.count_cons] at hle
      exact (Nat.le_add_right _ _).trans hle
  · rw [checkedRelease, if_neg]
    rintro (hz | hz)
    · omega
    · exact (hby.ne_zero hz).2 rfl

theorem Counted.releaseAll :
    ∀ (permits : List TunnelConnectionPermit) {a : TunnelConnectionAdmission}, a.Counted →
      permits.Nodup → (∀ permit ∈ permits, permit ∈ a.live) →
      (a.releaseAll permits).Counted ∧
        permits.foldlM checkedRelease a = some (a.releaseAll permits)
  | [], a, h, _, _ => ⟨h, rfl⟩
  | permit :: permits, a, h, hn, hl => by
      rw [List.nodup_cons] at hn
      obtain ⟨hco, hc⟩ := h.release (hl permit (.head _))
      have hr : ∀ p ∈ permits, p ∈ (a.release permit).live := by
        intro p hp
        rw [release_live]
        have hne : p ≠ permit := fun heq => hn.1 (heq ▸ hp)
        exact (List.mem_erase_of_ne hne).mpr (hl p (.tail _ hp))
      obtain ⟨hc', hf⟩ := Counted.releaseAll permits hco hn.2 hr
      refine ⟨hc', ?_⟩
      rw [List.foldlM_cons, hc]
      exact hf

@[simp] theorem limits_releaseAll :
    ∀ (permits : List TunnelConnectionPermit) (a : TunnelConnectionAdmission),
      (a.releaseAll permits).limits = a.limits
  | [], _ => rfl
  | permit :: permits, a => by
      have ho : (a.release permit).limits = a.limits := by rw [release_eq]
      rw [← ho]
      exact limits_releaseAll permits (a.release permit)

theorem limits_tryAcquire (hok : a.tryAcquire c = .ok (permit, a')) : a'.limits = a.limits := by
  unfold TunnelConnectionAdmission.tryAcquire at hok
  dsimp only at hok
  split at hok
  · cases hok
  · split at hok
    · cases hok
    · cases hok
      rfl

/-- What a step does to the counters.  Where permits are dropped, no subtraction goes
below zero. -/
def Moves (a a' : TunnelConnectionAdmission) : Prop :=
  a' = a ∨ (∃ c permit, a.tryAcquire c = .ok (permit, a')) ∨
    ∃ permits : List TunnelConnectionPermit, permits.foldlM checkedRelease a = some a'

end TunnelConnectionAdmission

namespace TunnelRegistry

open TunnelConnectionAdmission

variable {s s' : TunnelRegistry}

/-! ## Every live permit is held -/

/-- Every live permit is held somewhere. -/
def PermitsHeld (s : TunnelRegistry) : Prop :=
  ∀ permit ∈ s.admission.live, ∃ k, ∃ x ∈ s.held k, x.2 = permit

theorem Carries.held {x : ServerTunnel × Nat × TunnelConnectionPermit} (h : Carries s x) :
    ∃ k, ∃ y ∈ s.held k, y.2 = x.2.2 := by
  cases h with
  | member hm hx =>
    subst hx
    exact ⟨.pool _, _, List.mem_map_of_mem hm, rfl⟩
  | detached hm hx =>
    subst hx
    exact ⟨.detached, _, List.mem_map_of_mem hm, rfl⟩
  | released hme => exact ⟨.released, _, hme, rfl⟩

theorem exists_carries {k : Site} {y : ServerTunnel × TunnelConnectionPermit}
    (h : y ∈ s.held k) : ∃ x, Carries s x ∧ x.2.2 = y.2 := by
  cases k with
  | pool p =>
    obtain ⟨m, hm, rfl⟩ := List.mem_map.mp h
    exact ⟨_, .member hm rfl, rfl⟩
  | detached =>
    obtain ⟨m, hm, rfl⟩ := List.mem_map.mp h
    exact ⟨_, .detached hm rfl, rfl⟩
  | released => exact ⟨(y.1, 0, y.2), .released h, rfl⟩

/-- What is dropped from a site is dropped with live permits, each once. -/
theorem Accounted.permits_of_sublist (h : s.Accounted) {k : Site}
    {gone : List (ServerTunnel × TunnelConnectionPermit)} (hs : gone.Sublist (s.held k)) :
    (gone.map Prod.snd).Nodup ∧ ∀ permit ∈ gone.map Prod.snd, permit ∈ s.admission.live := by
  refine ⟨?_, fun permit hp => ?_⟩
  · have hi : ((gone.map Prod.snd).map TunnelConnectionPermit.id).Nodup := by
      rw [List.map_map]
      exact (hs.map permitId).nodup (h.permits.nodup k)
    exact hi.of_map _
  · obtain ⟨x, hx, rfl⟩ := List.mem_map.mp hp
    exact h.live k x (hs.subset hx)

/-! ## The invariant -/

/-- What holds of the counters and of the permits. -/
structure AdmissionInv (limits : ServerAdmissionLimits) (s : TunnelRegistry) : Prop where
  core : s.CoreInv
  counted : s.admission.Counted
  held : s.PermitsHeld
  nodup : s.admission.live.Nodup
  limits : s.admission.limits = limits

variable {limits : ServerAdmissionLimits}

theorem AdmissionInv.backed (h : s.AdmissionInv limits) : s.Backed := by
  refine ⟨h.nodup, fun permit hp => ?_⟩
  obtain ⟨k, y, hy, rfl⟩ := h.held permit hp
  exact exists_carries hy

/-- The counters go on to `a'`, which counts and has the limits. -/
def Goes (limits : ServerAdmissionLimits) (a a' : TunnelConnectionAdmission) : Prop :=
  a'.Counted ∧ a'.limits = limits ∧ a.Moves a'

theorem Goes.admissionInv (h : Goes limits s.admission s'.admission) (hc : s'.CoreInv)
    (hb : s'.Backed) : s'.AdmissionInv limits ∧ s.admission.Moves s'.admission := by
  refine ⟨⟨hc, h.1, fun permit hp => ?_, hb.nodup, h.2.1⟩, h.2.2⟩
  obtain ⟨x, hx, rfl⟩ := hb.carried permit hp
  exact hx.held

theorem AdmissionInv.stays (h : s.AdmissionInv limits) : Goes limits s.admission s.admission :=
  ⟨h.counted, h.limits, .inl rfl⟩

theorem AdmissionInv.dropped (h : s.AdmissionInv limits) {k : Site}
    {gone : List (ServerTunnel × TunnelConnectionPermit)} (hs : gone.Sublist (s.held k))
    {a' : TunnelConnectionAdmission} (ha : a' = s.admission.releaseAll (gone.map Prod.snd)) :
    Goes limits s.admission a' := by
  obtain ⟨hd, hl⟩ := h.core.accounted.permits_of_sublist hs
  obtain ⟨hco, hc⟩ := Counted.releaseAll _ h.counted hd hl
  subst ha
  exact ⟨hco, (limits_releaseAll _ _).trans h.limits, .inr (.inr ⟨_, hc⟩)⟩

theorem AdmissionInv.goes {a : Action} (h : s.AdmissionInv limits) (hs : PoolsStep s a s') :
    Goes limits s.admission s'.admission := by
  cases hs with
  | same hsa =>
    rw [hsa.admission]
    exact h.stays
  | insert _ hok =>
    obtain ⟨-, -, -, -, ha, -⟩ := ActiveClientPool.tryRegister_eq_ok hok
    exact ⟨h.counted.tryAcquire ha, (limits_tryAcquire ha).trans h.limits, .inr (.inl ⟨_, _, ha⟩)⟩
  | @remove w watcher _ _ =>
    have hsu : (((s.pools watcher.pool).removeMember watcher.memberId).1.map
        fun m => holding m.toTakenPoolMember).Sublist (s.held (.pool watcher.pool)) :=
      List.filter_sublist.map _
    exact h.dropped hsu (by simp [setPool, holding, Function.comp_def])
  | release hme _ => exact h.dropped (k := .released) (List.singleton_sublist.mpr hme) rfl
  | start => exact h.stays
  | replace hst =>
    rw [admission_replaceStep h.core.layout hst]
    exact h.stays

theorem AdmissionInv.poolsStep {a : Action} (h : s.AdmissionInv limits) (hs : PoolsStep s a s') :
    s'.AdmissionInv limits ∧ s.admission.Moves s'.admission :=
  (h.goes hs).admissionInv (h.core.step hs) (h.backed.step h.core.layout h.core.accounted hs)

/-- The future of `replace_authorization` is dropped with what it holds. -/
theorem AdmissionInv.dropReplace (h : s.AdmissionInv limits) (hd : s.dropReplace = some s') :
    s'.AdmissionInv limits ∧ s.admission.Moves s'.admission := by
  have hc := h.core.dropReplace hd
  obtain ⟨lock, rfl⟩ := dropReplace_eq hd
  refine (h.dropped (k := .detached) (List.Sublist.refl _) ?_).admissionInv hc ?_
  · simp [TunnelRegistry.held, holding, Function.comp_def]
  · refine h.backed.dropped _ rfl fun x hx => ?_
    cases hx with
    | member hm hx => exact .inl (.member hm hx)
    | detached hm hx =>
      subst hx
      exact .inr (List.mem_map_of_mem hm)
    | released hme => exact .inl (.released hme)

/-! ## The pools -/

theorem length_of_tryRegister {pool pool' : ActiveClientPool}
    {admission admission' : TunnelConnectionAdmission} {connection : ServerTunnel}
    {watcher counter : Nat} {member : PoolMember}
    (h : pool.tryRegister admission connection watcher counter = .ok (member, pool', admission')) :
    pool'.members.length ≤ admission.maxPerTunnel := by
  have hm := (ActiveClientPool.tryRegister_eq_ok h).2.2.2.2.2.1
  unfold ActiveClientPool.tryRegister at h
  split at h
  · cases h
  · rw [hm, List.length_append, List.length_singleton]
    omega

/-- A pool grows by a registration, up to the maximum, and by the push of `adopt_member`. -/
theorem length_members_of_poolsStep {a : Action} (hs : PoolsStep s a s') (p : PoolId) :
    (s'.pools p).members.length ≤ (s.pools p).members.length ∨
    (s'.pools p).members.length ≤ s.admission.maxPerTunnel ∨
    a = .pollReplace ∧ ∃ m, pendingPush s.replace = some (p, m) := by
  cases hs with
  | same hsa => exact .inl (by rw [hsa.members])
  | @insert t c q member pool admission' hr hok =>
    by_cases hp : p = q
    · subst hp
      refine .inr (.inl ?_)
      simpa [setRegister, spawnWatcher, setPool] using length_of_tryRegister hok
    · exact .inl (by simp [setRegister, spawnWatcher, setPool, Function.update_of_ne hp])
  | @remove w watcher hw hc =>
    refine .inl ?_
    by_cases hp : p = watcher.pool
    · subst hp
      simp only [setPool, Function.update_self, ActiveClientPool.removeMember]
      exact List.length_filter_le _ _
    · simp [setPool, Function.update_of_ne hp]
  | replace hst =>
    cases hst with
    | @takePool previous next q todo taken n hr =>
      by_cases hp : p = q
      · subst hp
        simp [setPool, ActiveClientPool.takeMembers]
      · simp [setPool, Function.update_of_ne hp]
    | @adopt next member todo n i q hr _ _ =>
      by_cases hp : p = q
      · subst hp
        simp [spawnWatcher, setPool, ActiveClientPool.beginAdopt]
      · simp [spawnWatcher, setPool, Function.update_of_ne hp]
    | @push next q member todo n hr =>
      by_cases hp : p = q
      · subst hp
        exact .inr (.inr ⟨rfl, member, by rw [hr]; rfl⟩)
      · exact .inl (by simp [setPool, Function.update_of_ne hp])
    | _ => exact .inl le_rfl
  | _ => exact .inl le_rfl

/-! ## Every run -/

/-- What the admission of a registry keeps to. -/
structure KeepsCounts (limits : ServerAdmissionLimits) (s : TunnelRegistry) : Prop where
  /-- The live permits are those that a pool, the replacement in progress or a task of
  `release_admission_after_close` holds, and none is held twice. -/
  held : ∀ permit, permit ∈ s.admission.live ↔ ∃ k, ∃ x ∈ s.held k, x.2 = permit
  once : Custody.Once permitId s.held ∧ s.admission.live.Nodup
  active : s.admission.active = s.admission.live.length
  total : s.admission.active = KeyCounts.total s.admission.activeByIdentity
  /-- An identity has an entry with its live permits, or none of both. -/
  byIdentity : ∀ c, s.admission.activeByIdentity.lookup c =
    if s.admission.identities.count c = 0 then none else some (s.admission.identities.count c)
  global : s.admission.active ≤ limits.maxTunnelConnections
  perIdentity : ∀ c n, s.admission.activeByIdentity.lookup c = some n →
    n ≤ limits.maxTunnelConnectionsPerIdentity
  /-- No step takes a counter below zero. -/
  moves : ∀ a s', droppable.step s a = some s' → s.admission.Moves s'.admission
  /-- A pool comes to be above the maximum by the push of `adopt_member`. -/
  exceeds : ∀ a s' p, droppable.step s a = some s' →
    limits.maxTunnelConnectionsPerTunnel < (s'.pools p).members.length →
    (s'.pools p).members.length ≤ (s.pools p).members.length ∨
    a = .act .pollReplace ∧ ∃ m, pendingPush s.replace = some (p, m)

theorem AdmissionInv.step {a : AdmissionAction} (h : s.AdmissionInv limits)
    (hs : droppable.step s a = some s') :
    s'.AdmissionInv limits ∧ s.admission.Moves s'.admission := by
  cases a with
  | act a => exact h.poolsStep (poolsStep_of_step hs)
  | dropReplace => exact h.dropReplace hs

theorem AdmissionInv.exceeds {a : AdmissionAction} (h : s.AdmissionInv limits)
    (hs : droppable.step s a = some s') (p : PoolId)
    (hl : limits.maxTunnelConnectionsPerTunnel < (s'.pools p).members.length) :
    (s'.pools p).members.length ≤ (s.pools p).members.length ∨
      a = .act .pollReplace ∧ ∃ m, pendingPush s.replace = some (p, m) := by
  cases a with
  | act a =>
    rcases length_members_of_poolsStep (poolsStep_of_step hs) p with hle | hle | ⟨rfl, hp⟩
    · exact .inl hle
    · rw [maxPerTunnel, h.limits] at hle
      omega
    · exact .inr ⟨rfl, hp⟩
  | dropReplace =>
    obtain ⟨lock, rfl⟩ := dropReplace_eq hs
    exact .inl le_rfl

theorem AdmissionInv.keepsCounts (h : s.AdmissionInv limits) : s.KeepsCounts limits where
  held permit := by
    refine ⟨h.held permit, ?_⟩
    rintro ⟨k, x, hx, rfl⟩
    exact h.core.accounted.live k x hx
  once := ⟨h.core.accounted.permits, h.nodup⟩
  active := h.counted.active
  total := by
    rw [h.counted.byIdentity.total, h.counted.active, identities, List.length_map]
  byIdentity := h.counted.byIdentity
  global := h.limits ▸ h.counted.global
  perIdentity c n hn := by
    rw [(h.counted.byIdentity.ne_zero hn).1, ← h.limits]
    exact h.counted.perIdentity c
  moves _ _ hs := (h.step hs).2
  exceeds _ _ p hs := h.exceeds hs p

/-- In every run, with any limits. -/
theorem admission_keeps_counts (snapshot : ManagedSnapshot) (limits : ServerAdmissionLimits)
    (hrun : droppable.Reaches (fromAuthorizationWithAdmission snapshot limits) s) :
    s.KeepsCounts limits := by
  have hi : s.AdmissionInv limits := by
    refine hrun.invariant (I := AdmissionInv limits) (fun _ _ _ h _ hs => (h.step hs).1) ?_
    exact ⟨coreInv_fromAuthorizationWithAdmission snapshot limits, counted_new limits,
      fun permit hp => (by cases hp), List.nodup_nil, rfl⟩
  exact hi.keepsCounts

/-- Two Tunnels of one connection each are put together, one above the maximum, and a
replacement that takes both members is dropped. -/
theorem admission_keeps_counts_merged :
    ∃ s s', droppable.Reaches
        (fromAuthorizationWithAdmission .empty { maxTunnelConnectionsPerTunnel := 1 }) s ∧
      (s.pools 0).members.length = 2 ∧ s.admission.active = 2 ∧
      s.KeepsCounts { maxTunnelConnectionsPerTunnel := 1 } ∧
      droppable.Reaches s s' ∧ s'.admission.active = 0 ∧
      s'.KeepsCounts { maxTunnelConnectionsPerTunnel := 1 } := by
  have he : ∃ s ∈ droppable.exec
        (fromAuthorizationWithAdmission .empty { maxTunnelConnectionsPerTunnel := 1 })
        ((replaceFor [sampleTunnel "a" [sampleIdentity 1], sampleTunnel "b" [sampleIdentity 2]] 6 ++
          registerFor (sampleIdentity 1) 0 ++ registerFor (sampleIdentity 2) 1 ++
          replaceFor [sampleTunnel "a" [sampleIdentity 1, sampleIdentity 2]] 12).map .act),
      ∃ s' ∈ droppable.exec s ((replaceFor [sampleTunnel "b" [sampleIdentity 1],
          sampleTunnel "a" [sampleIdentity 2]] 5).map .act ++ [.dropReplace]),
      (s.pools 0).members.length = 2 ∧ s.admission.active = 2 ∧ s'.admission.active = 0 := by
    decide
  obtain ⟨s, hs, s', hs', hl, ha, ha'⟩ := he
  have hr := Lts.Reaches.of_exec hs
  have hr' := Lts.Reaches.of_exec hs'
  exact ⟨s, s', hr, hl, ha, admission_keeps_counts _ _ hr, hr', ha',
    admission_keeps_counts _ _ (hr.trans hr')⟩

end TunnelRegistry

end Runewarp.Server
