import Runewarp.Server.Accounting
import Runewarp.Server.Placement

/-!
# Cancellation of a replacement

The Managed session drops the future of `replace_authorization` when its
connection fails, so the call may end at any of its awaits.  A later call that
runs to its end should repair whatever the dropped one left behind.

It does not always.  The later call closes the identities that *its* previous
snapshot trusts and its own does not.  An identity the dropped call removed is
no longer among them, so the pools that call had not closed yet keep open
connections that nothing closes.  Members that were detached when the future
was dropped are in no pool, and the later call does not see them at all.

`replacement_repairs` says that these are the only ways to fail, besides the
race of a registration with a commit.  A drop leaves the vector and the
snapshot of two different calls, so until the next commit it is only known that
the open members are in pools of the vector (`Kept`); from the commit on they
are headed for their places (`Placed`).
-/

namespace Runewarp.Server

namespace TunnelRegistry

/-! ## Drops -/

inductive AdmissionAction where
  | act (a : Action)
  /-- The future of `replace_authorization` is dropped at an await. -/
  | dropReplace

/-- The registry, with drops of the future of `replace_authorization`. -/
def droppable : Lts TunnelRegistry AdmissionAction where
  step s
    | .act a => system.step s a
    | .dropReplace => s.dropReplace

variable {s s' s₁ : TunnelRegistry} {c : ServerTunnel} {p : PoolId}

/-- Dropping the future drops what it had detached, and nothing else but its lock. -/
theorem dropReplace_eq (h : s.dropReplace = some s₁) : ∃ lock, s₁ = { s with
      poolsLock := lock
      admission := s.admission.releaseAll
        ((detached s.replace).map fun m => m.admissionPermit)
      replace := none } := by
  unfold dropReplace at h
  split at h
  · next hr => cases h; rw [hr]; exact ⟨_, rfl⟩
  · next hr => cases h; rw [hr]; exact ⟨_, rfl⟩
  · next hr => cases h; rw [hr]; exact ⟨_, rfl⟩
  · next hr => cases h; rw [hr]; exact ⟨_, rfl⟩
  · cases h

theorem Accounted.dropReplace (h : s.Accounted) (hd : s.dropReplace = some s₁) : s₁.Accounted := by
  obtain ⟨lock, rfl⟩ := dropReplace_eq hd
  refine h.dropped (s.held .detached) ?_ (fun x hx => ⟨_, hx⟩) ?_ ?_ rfl
  · intro k
    cases k with
    | pool p => exact List.Sublist.refl _
    | detached => exact List.nil_sublist _
    | released => exact List.Sublist.refl _
  · intro k x hx hg
    cases k with
    | pool p => cases h.connections.site_eq (k := .pool p) hx hg rfl
    | detached => cases hx
    | released => cases h.connections.site_eq (k := .released) hx hg rfl
  · simp [held, holding, Function.comp_def]

theorem CoreInv.dropReplace (h : s.CoreInv) (hd : s.dropReplace = some s₁) : s₁.CoreInv := by
  have ha := h.accounted.dropReplace hd
  obtain ⟨lock, rfl⟩ := dropReplace_eq hd
  exact ⟨⟨h.layout.nodup, h.layout.lt_next, trivial⟩, h.named,
    ⟨h.allocated.member, h.allocated.inserting, fun p m hp => by cases hp⟩, ha⟩

theorem HasOwners.dropReplace (h : s.HasOwners) (hd : s.dropReplace = some s₁) :
    s₁.HasOwners := by
  obtain ⟨lock, rfl⟩ := dropReplace_eq hd
  obtain ⟨owner, h⟩ := h
  exact ⟨owner, h.member, h.watcher, fun p m hp => by cases hp⟩

/-! ## The property -/

/-- What a completed replacement should leave behind. -/
structure Repaired (s : TunnelRegistry) : Prop where
  /-- A registered connection whose identity is not trusted has closed. -/
  revoked : ∀ t c, s.registers t = some (.returned c .registered) →
    c.clientIdentity ∉ s.authorization.snapshot.trusted → s.closed c = true
  /-- An open registered connection whose identity is trusted is in its identity's
  pool exactly once, and its permit is held. -/
  placed : ∀ t c, s.registers t = some (.returned c .registered) → s.closed c = false →
    c.clientIdentity ∈ s.authorization.snapshot.trusted →
    ∃ i p, s.authorization.snapshot.index c.clientIdentity = some i ∧
      s.tunnelPools[i]? = some p ∧ (s.pools p).connections.count c = 1 ∧
      ∃ m ∈ (s.pools p).members, m.connection = c ∧ m.admissionPermit ∈ s.admission.live

/-- The commit of a replacement sees to every open member: its identity is trusted by
the snapshot installed before or by the one the commit installs. -/
def CommitsCovered (s : TunnelRegistry) : Action → Prop
  | .pollReplace =>
    match s.replace with
    | some (.locked previous next) => ∀ c ∈ s.members, s.closed c = false →
        c.clientIdentity ∈ previous.snapshot.trusted ∨ c.clientIdentity ∈ next.snapshot.trusted
    | _ => True
  | _ => True

/-- The condition on a step: insertions are in place, commits see to every open member,
and a future is dropped only when no open member is detached. -/
def Recoverable (s : TunnelRegistry) : AdmissionAction → Prop
  | .act a => s.InsertsInPlace a ∧ s.CommitsCovered a
  | .dropReplace => ∀ m ∈ detached s.replace, s.closed m.connection = true

instance (s : TunnelRegistry) (a : Action) : Decidable (s.CommitsCovered a) := by
  unfold CommitsCovered
  split
  · split <;> infer_instance
  · infer_instance

instance (s : TunnelRegistry) : ∀ a, Decidable (s.Recoverable a)
  | .act _ => inferInstanceAs (Decidable (_ ∧ _))
  | .dropReplace => inferInstanceAs (Decidable (∀ m ∈ detached s.replace, _))

/-! ## Between a drop and the next commit -/

/-- No replacement has got past its commit. -/
def uncommitted : Option ReplaceTask → Bool
  | none | some (.awaitPools _ _) | some (.locked _ _) => true
  | _ => false

/-- Open members are in pools of the vector, and no registered connection is lost. -/
structure Kept (s : TunnelRegistry) : Prop where
  member : ∀ p c, c ∈ (s.pools p).connections → s.closed c = false → p ∈ s.tunnelPools
  occupied : ∀ t c, s.registers t = some (.returned c .registered) → s.closed c = false →
    ∃ p, c ∈ (s.pools p).connections

/-- A member that will be placed is in a pool of the vector. -/
theorem WillBePlaced.mem_tunnelPools (h : s.WillBePlaced p c.clientIdentity) (hl : s.Layout)
    (hp : p < s.nextPool) : p ∈ s.tunnelPools := by
  have hre := hl.remembers
  rw [WillBePlaced] at h
  generalize hr : s.replace = r at h hre
  unfold PlacedUnder at h
  split at h
  · exact h.1
  · exact h.1
  · rcases h.2 with ht | hf
    · exact hre.2 ht
    · rcases mem_rebuilt (mem_of_poolFor hf).1 with hold | ⟨hle, -⟩
      · exact hold
      · exact absurd hp (Nat.not_lt.mpr hle)
  · exact (mem_of_poolFor h).1

/-- What is headed for its place and not detached is kept. -/
theorem Placed.kept (h : s.Placed) (hc : s.CoreInv)
    (hd : ∀ m ∈ detached s.replace, s.closed m.connection = true) : s.Kept where
  member p c hm ho :=
    (h.member p c hm ho).mem_tunnelPools hc.layout (hc.allocated.member p c hm)
  occupied t c hr ho := by
    rcases h.occupied t c hr ho with hp | ⟨m, hm, rfl⟩
    · exact hp
    · cases ho.symm.trans (hd m hm)

theorem Kept.same (h : s.Kept) (hs : SamePools s s') : s'.Kept where
  member p c hm ho := by
    rw [hs.tunnelPools]
    exact h.member p c (hs.connections p ▸ hm) (hs.open_of_open ho)
  occupied t c hr ho := by
    simp only [hs.connections]
    rcases hs.returned t c _ hr with hold | ⟨hne, -⟩
    · exact h.occupied t c hold (hs.open_of_open ho)
    · exact absurd rfl hne

theorem Kept.insert {t : Nat} {member : PoolMember} {pool : ActiveClientPool}
    {admission' : TunnelConnectionAdmission} (h : s.Kept)
    (hp : s.closed c = true ∨ p ∈ s.tunnelPools) (hok : s.Inserts p c member pool admission') :
    Kept (s.inserted t p member pool admission' c) := by
  obtain ⟨rfl, -, -, -, -, hm, -⟩ := ActiveClientPool.tryRegister_eq_ok hok
  have hco : pool.connections = (s.pools p).connections ++ [member.connection] := by
    simp [ActiveClientPool.connections, hm]
  refine ⟨fun q d hd ho => ?_, fun t' d hr ho => ?_⟩
  · rcases mem_setPool.mp hd with ⟨rfl, hin⟩ | ⟨-, hin⟩
    · rw [hco, List.mem_append, List.mem_singleton] at hin
      rcases hin with hin | rfl
      · exact h.member q d hin ho
      · exact hp.resolve_left fun hcl => by cases ho.symm.trans hcl
    · exact h.member q d hin ho
  · rcases registers_setRegister.mp hr with ⟨-, hn⟩ | ⟨-, hr⟩
    · cases hn
      exact ⟨p, mem_setPool.mpr (.inl ⟨rfl, by simp [hco]⟩)⟩
    · obtain ⟨q, hq⟩ := h.occupied t' d hr ho
      exact ⟨q, mem_setPool_of_mem (s := s) hq fun hc => hco ▸ List.mem_append_left _ hc⟩

theorem Kept.remove {w : Nat} {watcher : CloseWatcher} {admission' : TunnelConnectionAdmission}
    (h : s.Kept) (how : s.HasOwners) (hw : s.watchers w = some watcher)
    (hc : s.closed watcher.connection = true) :
    Kept ({ s with
      watchers := Function.update s.watchers w none
      admission := admission' }.setPool watcher.pool
        ((s.pools watcher.pool).removeMember watcher.memberId).2) where
  member q d hd ho := h.member q d (mem_of_mem_removeMember (s := s) hd) ho
  occupied t d hr ho := by
    obtain ⟨q, hq⟩ := h.occupied t d hr ho
    refine ⟨q, mem_setPool_of_mem (s := s) hq fun hq => ?_⟩
    obtain ⟨m, hm, rfl⟩ := ActiveClientPool.mem_connections.mp hq
    refine ActiveClientPool.mem_connections.mpr
      ⟨m, ActiveClientPool.mem_removeMember.mpr ⟨hm, fun hid => ?_⟩, rfl⟩
    cases ho.symm.trans (how.closed_of_removed hw hc hm hid)

/-- At a commit that sees to every open member, what is kept will be placed. -/
theorem Kept.placed {previous next : SnapshotRef} (h : s.Kept)
    (hr : s.replace = some (.locked previous next)) (hc : s.CommitsCovered .pollReplace) :
    s.Placed := by
  simp only [CommitsCovered, hr] at hc
  refine ⟨fun p c hm ho => ?_, fun m hm => ?_, fun p m hp => ?_,
    fun t c hre ho => .inl (h.occupied t c hre ho)⟩
  · have hp := h.member p c hm ho
    rw [WillBePlaced, hr]
    exact ⟨hp, hc c (List.mem_flatMap.mpr ⟨p, hp, hm⟩) ho⟩
  · rw [hr] at hm
    cases hm
  · rw [hr] at hp
    cases hp

/-! ## Runs -/

/-- What a run of such steps keeps. -/
structure RecoveryInv (s : TunnelRegistry) : Prop where
  core : s.CoreInv
  owners : s.HasOwners
  kept : uncommitted s.replace = true → s.Kept
  placed : uncommitted s.replace = false → s.Placed

theorem recoveryInv_fromAuthorizationWithAdmission (snapshot : ManagedSnapshot)
    (limits : ServerAdmissionLimits) :
    (fromAuthorizationWithAdmission snapshot limits).RecoveryInv where
  core := coreInv_fromAuthorizationWithAdmission snapshot limits
  owners := hasOwners_fromAuthorizationWithAdmission snapshot limits
  kept _ := ⟨fun p c hm => (by cases hm), fun t c hr => by cases hr⟩
  placed hu := by cases hu

/-- A step of a replacement past its commit goes on placing, to the end of the call. -/
theorem RecoveryInv.of_placed (hp : s.Placed) (hl : s.Layout)
    (hs : ReplaceStep s s') (hc : s'.CoreInv) (ho : s'.HasOwners) : s'.RecoveryInv := by
  have hp' := hp.replaceStep hl hs
  refine ⟨hc, ho, fun hu => hp'.kept hc fun m hm => ?_, fun _ => hp'⟩
  cases hr : s'.replace with
  | none =>
    rw [hr] at hm
    cases hm
  | some task =>
    rw [hr] at hu hm
    cases task with
    | awaitPools | locked => cases hm
    | _ => cases hu

theorem RecoveryInv.replaceStep (h : s.RecoveryInv) (hok : s.CommitsCovered .pollReplace)
    (hs : ReplaceStep s s') (hc : s'.CoreInv) (ho : s'.HasOwners) : s'.RecoveryInv := by
  cases hu : uncommitted s.replace with
  | false => exact .of_placed (h.placed hu) h.core.layout hs hc ho
  | true =>
    have hk := h.kept hu
    cases hs with
    | lock => exact ⟨hc, ho, fun _ => ⟨hk.member, hk.occupied⟩, fun hu => by cases hu⟩
    | commit hr hne =>
      exact .of_placed (hk.placed hr hok) h.core.layout (.commit hr hne) hc ho
    | commitKeeping hr he =>
      exact .of_placed (hk.placed hr hok) h.core.layout (.commitKeeping hr he) hc ho
    | closePool hr | closed hr | takePool hr | rebuild hr | revoke hr | discard hr | adopt hr
    | push hr | unlock hr | reset hr | finish hr =>
      rw [hr] at hu
      cases hu

theorem RecoveryInv.act {a : Action} (h : s.RecoveryInv) (hok : s.Recoverable (.act a))
    (hst : system.step s a = some s') : s'.RecoveryInv := by
  have hs := poolsStep_of_step hst
  have hc := h.core.step hs
  have ho := h.owners.step hs
  cases hs with
  | same hsa =>
    refine ⟨hc, ho, fun hu => ?_, fun hu => ?_⟩
    · exact (h.kept (hsa.replace ▸ hu)).same hsa
    · exact (h.placed (hsa.replace ▸ hu)).same hsa
  | @insert t c p member pool admission' hr hre =>
    have hi : s.closed c = true ∨ s.WillBePlaced p c.clientIdentity :=
      hok.1 (c, p) (by simp [insertion, hr, hre])
    refine ⟨hc, ho, fun hu => (h.kept hu).insert (hi.imp_right fun hw => ?_) hre,
      fun hu => (h.placed hu).insert hi hre⟩
    exact hw.mem_tunnelPools h.core.layout (h.core.allocated.inserting t c p hr)
  | remove hw hcl =>
    exact ⟨hc, ho, fun hu => (h.kept hu).remove h.owners hw hcl,
      fun hu => (h.placed hu).remove h.owners hw hcl⟩
  | release =>
    refine ⟨hc, ho, fun hu => ⟨(h.kept hu).member, (h.kept hu).occupied⟩, fun hu => ?_⟩
    have hp := h.placed hu
    exact ⟨hp.member, hp.held, hp.pushing, hp.occupied⟩
  | start hr =>
    have hk := h.kept (by rw [hr]; rfl)
    exact ⟨hc, ho, fun _ => ⟨hk.member, hk.occupied⟩, fun hu => by cases hu⟩
  | replace hrs => exact h.replaceStep hok.2 hrs hc ho

theorem RecoveryInv.dropReplace (h : s.RecoveryInv) (hok : s.Recoverable .dropReplace)
    (hd : s.dropReplace = some s') : s'.RecoveryInv := by
  have hk : s.Kept := by
    cases hu : uncommitted s.replace with
    | true => exact h.kept hu
    | false => exact (h.placed hu).kept h.core hok
  have hc := h.core.dropReplace hd
  have ho := h.owners.dropReplace hd
  obtain ⟨lock, rfl⟩ := dropReplace_eq hd
  exact ⟨hc, ho, fun _ => ⟨hk.member, hk.occupied⟩, fun hu => by cases hu⟩

/-- Where nothing is in progress and all is placed, nothing is left to repair. -/
theorem Placed.repaired (h : s.Placed) (hc : s.CoreInv) (hn : s.replace = none) :
    s.Repaired := by
  refine ⟨fun t c hr hun => ?_, fun t c hr ho _ => ?_⟩
  · cases ho : s.closed c with
    | true => rfl
    | false =>
      obtain ⟨p, -, hf⟩ := h.exists_poolFor hn hr ho
      exact absurd (mem_of_poolFor hf).2 hun
  · obtain ⟨p, hp, hf⟩ := h.exists_poolFor hn hr ho
    obtain ⟨i, hi, hg⟩ := Option.bind_eq_some_iff.mp hf
    obtain ⟨m, hm, hmc⟩ := ActiveClientPool.mem_connections.mp hp
    have hnd := hc.accounted.connections.nodup (.pool p)
    rw [TunnelRegistry.held, List.map_map] at hnd
    refine ⟨i, p, hi, hg, List.count_eq_one_of_mem hnd hp, m, hm, hmc, ?_⟩
    exact hc.accounted.live (.pool p) (holding m.toTakenPoolMember) (List.mem_map_of_mem hm)

/-- In every run whose steps are recoverable, with any number of replacements dropped, a
replacement that returns has repaired what the dropped ones left behind. -/
theorem replacement_repairs (snapshot : ManagedSnapshot) (limits : ServerAdmissionLimits)
    (s s' : TunnelRegistry)
    (hrun : droppable.Steps Recoverable (fromAuthorizationWithAdmission snapshot limits) s)
    (hstep : droppable.step s (.act .pollReplace) = some s') (hreturned : s'.replace = none) :
    s'.Repaired := by
  have h : s.RecoveryInv := by
    refine hrun.invariant ?_ (recoveryInv_fromAuthorizationWithAdmission snapshot limits)
    intro s a s' h hok hs
    cases a with
    | act a => exact h.act hok hs
    | dropReplace => exact h.dropReplace hok hs
  have hs := replaceStep_of_pollReplace hstep
  have hc := h.core.step (.replace hs)
  cases hs with
  | finish hr =>
    have hp := h.placed (by rw [hr]; rfl)
    exact (hp.replaceStep h.core.layout (.finish hr)).repaired hc rfl
  | lock | commit | commitKeeping | closePool | closed | takePool | rebuild | revoke | discard
  | adopt | push | unlock | reset => cases hreturned

def sampleTunnels : List ServerTunnelConfig :=
  [sampleTunnel "a" [sampleIdentity 1], sampleTunnel "b" [sampleIdentity 2]]

/-- Two Tunnels with a connection each. -/
def twoRegistered : List Action :=
  replaceFor sampleTunnels 6 ++ registerFor (sampleIdentity 1) 0 ++
    registerFor (sampleIdentity 2) 1

/-- A replacement is dropped when it has closed the connection of `b`, another one after its
commit, and a third returns. -/
theorem replacement_repairs_after_two_drops :
    ∃ s s', droppable.Steps Recoverable (fromAuthorizationWithAdmission .empty {}) s ∧
      droppable.step s (.act .pollReplace) = some s' ∧ s'.replace = none ∧
      s'.closed ⟨0, sampleIdentity 1⟩ = false ∧ s'.Repaired := by
  have he : ∃ s ∈ droppable.execWhile Recoverable (fromAuthorizationWithAdmission .empty {})
        ((twoRegistered ++ replaceFor [sampleTunnel "a" [sampleIdentity 1]] 5).map .act ++
          [.dropReplace] ++ (replaceFor [sampleTunnel "a" [sampleIdentity 1]] 2).map .act ++
          [.dropReplace] ++ (replaceFor [sampleTunnel "a" [sampleIdentity 1]] 10).map .act),
      ∃ s' ∈ droppable.step s (.act .pollReplace),
      s'.replace.isNone = true ∧ s'.closed ⟨0, sampleIdentity 1⟩ = false := by
    decide
  obtain ⟨s, hs, s', hs', hn, ho⟩ := he
  have hr := Lts.Steps.of_execWhile hs
  have hn := Option.isNone_iff_eq_none.mp hn
  exact ⟨s, s', hr, hs', hn, ho, replacement_repairs _ _ s s' hr hs' hn⟩

/-- A replacement that revokes two identities is dropped after it closed the first
of their pools.  The call that follows leaves the other connection open. -/
theorem cancelled_revocation_is_lost :
    ∃ s s', droppable.Reaches (fromAuthorizationWithAdmission .empty {}) s ∧
      droppable.step s (.act .pollReplace) = some s' ∧ s'.replace = none ∧ ¬ s'.Repaired := by
  have he : ∃ s ∈ droppable.exec (fromAuthorizationWithAdmission .empty {})
        ((twoRegistered ++ replaceFor [] 3).map .act ++ [.dropReplace] ++
          (replaceFor [] 9).map .act),
      ∃ s' ∈ droppable.step s (.act .pollReplace),
      (s'.replace.isNone = true ∧
          s'.registers 1 = some (.returned ⟨1, sampleIdentity 2⟩ .registered)) ∧
        sampleIdentity 2 ∉ s'.authorization.snapshot.trusted ∧
        s'.closed ⟨1, sampleIdentity 2⟩ = false := by
    decide
  obtain ⟨s, hs, s', hs', ⟨hn, hr⟩, hun, ho⟩ := he
  refine ⟨s, s', .of_exec hs, hs', Option.isNone_iff_eq_none.mp hn, fun hre => ?_⟩
  cases ho.symm.trans (hre.revoked 1 _ hr hun)

end TunnelRegistry

end Runewarp.Server
