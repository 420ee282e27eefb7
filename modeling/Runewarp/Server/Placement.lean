import Runewarp.Server.Realignment

/-!
# Placement of registered connections

When no call of `register` or `replace_authorization` is in progress, every
open registered connection should be a member of its identity's pool and of no
other, and every connection whose identity is not trusted should be closed.

A call of `register` reads the pool under the `tunnel_pools` lock and inserts
after it has released the lock.  A commit may pass in between, and then the
member ends up in a pool that is not its own, or stays open though its identity
was revoked (`Settled` fails).  `WillBePlaced` says which insertions the commit
in progress still puts right.  In a run whose insertions all meet it, placement
holds whenever nothing is in progress.
-/

namespace Runewarp.Server

namespace TunnelRegistry

/-! ## The property -/

/-- No call of `register` or `replace_authorization` is in progress. -/
def Quiescent (s : TunnelRegistry) : Prop :=
  s.replace.isNone = true ∧
    ∀ t < s.nextConnection, (s.registers t).all RegisterTask.isReturned = true

instance (s : TunnelRegistry) : Decidable s.Quiescent := inferInstanceAs (Decidable (_ ∧ _))

/-- Placement of the connections `register` was called with. -/
structure Settled (s : TunnelRegistry) : Prop where
  /-- An open registered connection is a member of exactly one pool of the vector,
  the one at the index of its identity. -/
  placed : ∀ t c, s.registers t = some (.returned c .registered) → s.closed c = false →
    ∃ i p, s.authorization.snapshot.index c.clientIdentity = some i ∧
      s.tunnelPools[i]? = some p ∧ c ∈ (s.pools p).connections ∧
      ∀ j q, s.tunnelPools[j]? = some q → c ∈ (s.pools q).connections → j = i
  /-- A connection whose identity is not trusted has closed. -/
  revoked : ∀ t c o, s.registers t = some (.returned c o) →
    c.clientIdentity ∉ s.authorization.snapshot.trusted → s.closed c = true

/-! ## Insertions a commit in progress puts right -/

/-- Where the replacement in progress leaves an open member of identity `c` that
is in pool `p` now: in `c`'s pool, or closed. -/
def PlacedUnder (s : TunnelRegistry) (p : PoolId) (c : ClientIdentity) :
    Option ReplaceTask → Prop
  | some (.locked previous next) =>
    p ∈ s.tunnelPools ∧ (c ∈ previous.snapshot.trusted ∨ c ∈ next.snapshot.trusted)
  | some (.closing _ next removed todo _) =>
    p ∈ s.tunnelPools ∧ (c ∈ next.snapshot.trusted ∨ c ∈ removed ∧ p ∈ todo)
  | some (.taking previous next todo _ _) =>
    c ∈ next.snapshot.trusted ∧
      (p ∈ todo ∨ poolFor next.snapshot (s.rebuilt previous next).1 c = some p)
  | _ => poolFor s.authorization.snapshot s.tunnelPools c = some p

instance (s : TunnelRegistry) (p : PoolId) (c : ClientIdentity) :
    ∀ r, Decidable (s.PlacedUnder p c r)
  | some (.locked _ _) => inferInstanceAs (Decidable (_ ∧ _))
  | some (.closing _ _ _ _ _) => inferInstanceAs (Decidable (_ ∧ _))
  | some (.taking _ _ _ _ _) => inferInstanceAs (Decidable (_ ∧ _))
  | none | some (.awaitPools _ _) | some (.adopting _ _ _) | some (.adoptPush _ _ _ _ _)
  | some (.resetting _ _) | some (.finishing _) => inferInstanceAs (Decidable (_ = _))

/-- A member of identity `c` in pool `p` is in its place, or the replacement in
progress will put it there or close it. -/
def WillBePlaced (s : TunnelRegistry) (p : PoolId) (c : ClientIdentity) : Prop :=
  s.PlacedUnder p c s.replace

instance (s : TunnelRegistry) (p : PoolId) (c : ClientIdentity) :
    Decidable (s.WillBePlaced p c) :=
  inferInstanceAs (Decidable (s.PlacedUnder p c s.replace))

/-- The connection that `try_register` inserts in a step, and the pool. -/
def insertion (s : TunnelRegistry) : Action → Option (ServerTunnel × PoolId)
  | .pollRegister t =>
    match s.registers t with
    | some (.tryRegister c p) =>
      match (s.pools p).tryRegister s.admission c s.nextWatcher s.nextCounter with
      | .ok _ => some (c, p)
      | .error _ => none
    | _ => none
  | _ => none

/-- The condition on a step: `try_register` inserts an open connection only where
`WillBePlaced` holds. -/
def InsertsInPlace (s : TunnelRegistry) (a : Action) : Prop :=
  ∀ x ∈ s.insertion a, s.closed x.1 = true ∨ s.WillBePlaced x.2 x.1.clientIdentity

instance (s : TunnelRegistry) (a : Action) : Decidable (s.InsertsInPlace a) :=
  inferInstanceAs (Decidable (∀ x ∈ s.insertion a, _))

/-! ## The invariant -/

/-- An open connection in a pool will be placed, an open one a replacement holds is trusted,
and no registered one is lost. -/
structure Placed (s : TunnelRegistry) : Prop where
  member : ∀ p c, c ∈ (s.pools p).connections → s.closed c = false →
    s.WillBePlaced p c.clientIdentity
  held : ∀ m ∈ detached s.replace, s.closed m.connection = false →
    m.clientIdentity ∈ s.authorization.snapshot.trusted
  pushing : ∀ p m, pendingPush s.replace = some (p, m) →
    poolFor s.authorization.snapshot s.tunnelPools m.clientIdentity = some p
  occupied : ∀ t c, s.registers t = some (.returned c .registered) →
    s.closed c = false →
    (∃ p, c ∈ (s.pools p).connections) ∨ ∃ m ∈ detached s.replace, m.connection = c

/-- A call of `register` that was refused has closed its connection. -/
def Refused (s : TunnelRegistry) : Prop :=
  ∀ t c o, s.registers t = some (.returned c o) → o ≠ .registered → s.closed c = true

theorem placed_fromAuthorizationWithAdmission (snapshot : ManagedSnapshot)
    (limits : ServerAdmissionLimits) : (fromAuthorizationWithAdmission snapshot limits).Placed where
  member p c hc := by cases hc
  held m hm := by cases hm
  pushing p m hp := by cases hp
  occupied t c hr := by cases hr

/-! ## Moves of a replacement -/

section Moves

variable {s : TunnelRegistry} {previous next : SnapshotRef}
  {removed : List ClientIdentity} {p : PoolId} {todo : List PoolId} {n : Nat}

/-- After the commit, a member is trusted or its identity is one to close. -/
theorem Placed.commit (h : s.Placed) (hr : s.replace = some (.locked previous next))
    {c : ServerTunnel} (hc : c ∈ (s.pools p).connections) (ho : s.closed c = false) :
    p ∈ s.tunnelPools ∧ (c.clientIdentity ∈ next.snapshot.trusted ∨
      c.clientIdentity ∈
        ManagedSnapshot.removedIdentities previous.snapshot next.snapshot) := by
  have hpl := h.member p c hc ho
  rw [WillBePlaced, hr] at hpl
  obtain ⟨hp, ht⟩ := hpl
  refine ⟨hp, ?_⟩
  by_cases hn : c.clientIdentity ∈ next.snapshot.trusted
  · exact .inl hn
  · rcases ht with hpr | hn'
    · exact .inr (ManagedSnapshot.mem_removedIdentities.mpr ⟨hpr, hn⟩)
    · exact absurd hn' hn

/-- Closing a pool deals with its members of the removed identities. -/
theorem Placed.closePool (h : s.Placed)
    (hr : s.replace = some (.closing previous next removed (p :: todo) n)) :
    Placed { s.close ((s.pools p).connectionsForIdentities removed) with
      replace := some (.closing previous next removed todo
        (n + ((s.pools p).connectionsForIdentities removed).length)) } := by
  have hcl := samePools_close s ((s.pools p).connectionsForIdentities removed)
  refine ⟨?_, ?_, ?_, ?_⟩
  · intro q c hc ho
    have hp := h.member q c hc (hcl.open_of_open ho)
    rw [WillBePlaced, hr] at hp
    obtain ⟨hq, htr⟩ := hp
    refine ⟨hq, ?_⟩
    rcases htr with hn | ⟨hrm, ht⟩
    · exact .inl hn
    · rcases List.mem_cons.mp ht with rfl | ht
      · have hre := ActiveClientPool.mem_connectionsForIdentities.mpr ⟨hc, hrm⟩
        cases ho.symm.trans (close_closed.mpr (.inr hre))
      · exact .inr ⟨hrm, ht⟩
  · intro m hm
    cases hm
  · intro q m hm
    cases hm
  · intro t c hrg ho
    have hoc := h.occupied t c hrg (hcl.open_of_open ho)
    rw [hr] at hoc
    exact hoc

theorem Placed.takePool {taken : List TakenPoolMember} (h : s.Placed) (hl : s.Layout)
    (hr : s.replace = some (.taking previous next (p :: todo) taken n)) :
    Placed { s.setPool p (s.pools p).takeMembers.2 with
      replace := some (.taking previous next todo (taken ++ (s.pools p).takeMembers.1) n) } := by
  have hre := hl.remembers
  rw [hr] at hre
  obtain ⟨hn, -⟩ := hre
  have hme : ∀ q c, c ∈ (s.pools q).connections → s.closed c = false →
      s.PlacedUnder q c.clientIdentity (some (.taking previous next (p :: todo) taken n)) := by
    intro q c hc ho
    have hp := h.member q c hc ho
    rwa [WillBePlaced, hr] at hp
  refine ⟨?_, ?_, ?_, ?_⟩
  · intro q c hc ho
    rcases mem_setPool.mp hc with ⟨-, hni⟩ | ⟨hq, hc⟩
    · cases hni
    · obtain ⟨ht, hpl⟩ := hme q c hc ho
      refine ⟨ht, hpl.imp_left fun hto => ?_⟩
      exact (List.mem_cons.mp hto).resolve_left hq
  · intro m hm ho
    rcases List.mem_append.mp hm with hm | hm
    · refine h.held m ?_ ho
      rw [hr]
      exact hm
    · have hc := ActiveClientPool.mem_takeMembers.mpr ⟨m, hm, rfl⟩
      rw [m.authenticated]
      exact hn ▸ (hme p m.connection hc ho).1
  · intro q m hm
    cases hm
  · intro t c hrg ho
    have hoc := h.occupied t c hrg ho
    rw [hr] at hoc
    rcases hoc with ⟨q, hq⟩ | ⟨m, hm, hmc⟩
    · by_cases hqp : q = p
      · subst hqp
        obtain ⟨m, hm, hmc⟩ := ActiveClientPool.mem_takeMembers.mp hq
        exact .inr ⟨m, List.mem_append_right taken hm, hmc⟩
      · exact .inl ⟨q, mem_setPool.mpr (.inr ⟨hqp, hq⟩)⟩
    · exact .inr ⟨m, List.mem_append_left _ hm, hmc⟩

variable {todo : List TakenPoolMember}

/-- A member with no index has closed, so releasing it loses nothing. -/
theorem Placed.revoke {member : TakenPoolMember} (h : s.Placed) (hl : s.Layout)
    (hr : s.replace = some (.adopting next (member :: todo) n))
    (hi : next.snapshot.index member.clientIdentity = none) : Placed { s with
      releases := (member.connection, member.admissionPermit) :: s.releases
      replace := some (.adopting next todo n) } := by
  have hre := hl.remembers
  have hh := h.held
  rw [hr] at hre hh
  obtain ⟨hn, -⟩ := hre
  refine ⟨?_, fun m hm => hh m (.tail _ hm), ?_, ?_⟩
  · intro q c hc ho
    have hp := h.member q c hc ho
    rwa [WillBePlaced, hr] at hp
  · intro q m hm
    cases hm
  · intro t c hrg ho
    have hoc := h.occupied t c hrg ho
    rw [hr] at hoc
    rcases hoc with hpo | ⟨m, hm, rfl⟩
    · exact .inl hpo
    · rcases List.mem_cons.mp hm with rfl | hm
      · obtain ⟨i, hi'⟩ := ManagedSnapshot.mem_trusted.mp (hh m (.head _) ho)
        rw [← hn, hi] at hi'
        cases hi'
      · exact .inr ⟨m, hm, rfl⟩

/-- The adoption loop finds a pool for every index. -/
theorem Layout.getElem?_ne_none {c : ClientIdentity} {i : Nat} (hl : s.Layout)
    (hr : s.replace = some (.adopting next todo n)) (hi : next.snapshot.index c = some i) :
    s.tunnelPools[i]? ≠ none := by
  have hre := hl.remembers
  rw [hr] at hre
  obtain ⟨-, hle⟩ := hre
  have hlt := ManagedSnapshot.index_lt hi
  rw [← hle] at hlt
  simpa using hlt

/-- The pool a member is about to be pushed to is its own. -/
theorem Placed.adopt {member : TakenPoolMember} {i : Nat} (h : s.Placed) (hl : s.Layout)
    (hr : s.replace = some (.adopting next (member :: todo) n))
    (hi : next.snapshot.index member.clientIdentity = some i) (hp : s.tunnelPools[i]? = some p) :
    Placed { ({ s with
        watchers := Function.update s.watchers member.closeWatcher none }.setPool p
          ((s.pools p).beginAdopt member s.nextWatcher).2).spawnWatcher
            ⟨member.connection, p, (s.pools p).nextMemberId⟩ with
      replace := some
        (.adoptPush next p ((s.pools p).beginAdopt member s.nextWatcher).1 todo n) } := by
  have hre := hl.remembers
  have hh := h.held
  rw [hr] at hre hh
  obtain ⟨hn, -⟩ := hre
  refine ⟨?_, ?_, ?_, ?_⟩
  · intro q c hc ho
    have hc' : c ∈ (s.pools q).connections := by
      rcases mem_setPool.mp hc with ⟨rfl, hc⟩ | ⟨-, hc⟩ <;> exact hc
    have hpl := h.member q c hc' ho
    rwa [WillBePlaced, hr] at hpl
  · intro m hm ho
    rcases List.mem_cons.mp hm with rfl | hm
    · exact hh member (.head _) ho
    · exact hh m (.tail _ hm) ho
  · intro q m hm
    cases hm
    show (s.authorization.snapshot.index member.clientIdentity).bind _ = some p
    rw [← hn, hi]
    exact hp
  · intro t c hrg ho
    have hoc := h.occupied t c hrg ho
    rw [hr] at hoc
    rcases hoc with ⟨q, hq⟩ | ⟨m, hm, rfl⟩
    · exact .inl ⟨q, mem_setPool_of_mem hq fun hc => hc⟩
    · rcases List.mem_cons.mp hm with rfl | hm
      · exact .inr ⟨_, .head _, rfl⟩
      · exact .inr ⟨m, .tail _ hm, rfl⟩

theorem Placed.push {member : PoolMember} (h : s.Placed)
    (hr : s.replace = some (.adoptPush next p member todo n)) :
    Placed { s.setPool p ((s.pools p).push member) with
      replace := some (.adopting next todo n) } := by
  have hh := h.held
  rw [hr] at hh
  have hme : ∀ q c, c ∈ (s.pools q).connections → s.closed c = false →
      poolFor s.authorization.snapshot s.tunnelPools c.clientIdentity = some q := by
    intro q c hc ho
    have hp := h.member q c hc ho
    rwa [WillBePlaced, hr] at hp
  refine ⟨?_, fun m hm => hh m (.tail _ hm), ?_, ?_⟩
  · intro q c hc ho
    rcases mem_setPool.mp hc with ⟨rfl, hin⟩ | ⟨-, hin⟩
    · rw [ActiveClientPool.connections_push, List.mem_append, List.mem_singleton] at hin
      rcases hin with hin | rfl
      · exact hme q c hin ho
      · have hpu := h.pushing q member (by rw [hr]; rfl)
        rw [member.authenticated] at hpu
        exact hpu
    · exact hme q c hin ho
  · intro q m hm
    cases hm
  · intro t c hre ho
    have hoc := h.occupied t c hre ho
    rw [hr] at hoc
    rcases hoc with ⟨q, hq⟩ | ⟨m, hm, rfl⟩
    · exact .inl ⟨q, mem_setPool_of_mem hq fun hc => by simp [hc]⟩
    · rcases List.mem_cons.mp hm with rfl | hm
      · exact .inl ⟨p, mem_setPool.mpr (.inl ⟨rfl, by simp⟩)⟩
      · exact .inr ⟨m, hm, rfl⟩

end Moves

variable {s s' : TunnelRegistry}

/-- A move that changes neither pools nor what is detached keeps placement if it
keeps where open members are headed. -/
theorem Placed.of_moved (h : s.Placed) (hpo : s'.pools = s.pools) (hcl : s'.closed = s.closed)
    (hre : s'.registers = s.registers)
    (hme : ∀ p c, c ∈ (s.pools p).connections → s.closed c = false →
      s'.WillBePlaced p c.clientIdentity) (hd : detached s'.replace = detached s.replace)
    (hh : detached s'.replace ≠ [] →
      s'.authorization.snapshot = s.authorization.snapshot) (hpu : pendingPush s'.replace = none) :
    s'.Placed where
  member p c hc ho := hme p c (hpo ▸ hc) (hcl ▸ ho)
  held m hm ho := by
    rw [hh (List.ne_nil_of_mem hm)]
    exact h.held m (hd ▸ hm) (hcl ▸ ho)
  pushing p m hp := by
    rw [hpu] at hp
    cases hp
  occupied t c hr ho := by
    rw [hd, hpo]
    exact h.occupied t c (hre ▸ hr) (hcl ▸ ho)

theorem Placed.replaceStep (h : s.Placed) (hl : s.Layout) (hs : ReplaceStep s s') :
    s'.Placed := by
  have hre := hl.remembers
  have hm := h.member
  simp only [WillBePlaced] at hm
  cases hs with
  | @lock previous prepared lock hr _ =>
    rw [hr] at hre hm
    refine h.of_moved rfl rfl rfl ?_ (by rw [hr]; rfl) (fun _ => rfl) rfl
    intro p c hc ho
    obtain ⟨hp, ht⟩ := mem_of_poolFor (hm p c hc ho)
    exact ⟨hp, .inl (hre ▸ ht)⟩
  | @commit previous next hr _ =>
    refine h.of_moved rfl rfl rfl ?_ (by rw [hr]; rfl) (fun hne => absurd rfl hne) rfl
    intro p c hc ho
    obtain ⟨hp, ht⟩ := h.commit hr hc ho
    exact ⟨hp, ht.imp_right fun hre => ⟨hre, hp⟩⟩
  | @commitKeeping previous next hr hni =>
    refine h.of_moved rfl rfl rfl ?_ (by rw [hr]; rfl) (fun hne => absurd rfl hne) rfl
    intro p c hc ho
    obtain ⟨hp, ht⟩ := h.commit hr hc ho
    rw [hni] at ht
    exact ⟨ht.resolve_right List.not_mem_nil, .inl hp⟩
  | closePool hr => exact h.closePool hr
  | closed hr =>
    rw [hr] at hm
    refine h.of_moved rfl rfl rfl ?_ (by rw [hr]; rfl) (fun hne => absurd rfl hne) rfl
    intro p c hc ho
    obtain ⟨hp, ht⟩ := hm p c hc ho
    exact ⟨ht.resolve_right fun hre => List.not_mem_nil hre.2, .inl hp⟩
  | takePool hr => exact h.takePool hl hr
  | @rebuild previous next taken n hr =>
    rw [hr] at hre hm
    obtain ⟨hn, -⟩ := hre
    refine h.of_moved rfl rfl rfl ?_ (by rw [hr]; rfl) (fun _ => rfl) rfl
    intro p c hc ho
    obtain ⟨-, hpl⟩ := hm p c hc ho
    have hf := hpl.resolve_left List.not_mem_nil
    rw [← hn]
    exact hf
  | revoke hr hi => exact h.revoke hl hr hi
  | discard hr hi hp => exact absurd hp (hl.getElem?_ne_none hr hi)
  | adopt hr hi hp => exact h.adopt hl hr hi hp
  | push hr => exact h.push hr
  | unlock hr | reset hr | finish hr =>
    rw [hr] at hm
    exact h.of_moved rfl rfl rfl hm (by rw [hr]; rfl) (fun _ => rfl) rfl

/-! ## Steps and runs -/

section Steps

variable {s s' : TunnelRegistry}

theorem SamePools.willBePlaced (h : SamePools s s') {p : PoolId} {c : ClientIdentity} :
    s'.WillBePlaced p c ↔ s.WillBePlaced p c := by
  rw [WillBePlaced, WillBePlaced, h.replace]
  unfold PlacedUnder
  split <;> simp only [rebuilt, h.tunnelPools, h.nextPool, h.authorization]

theorem SamePools.connections (h : SamePools s s') (p : PoolId) :
    (s'.pools p).connections = (s.pools p).connections := by
  rw [ActiveClientPool.connections, h.members p]
  rfl

theorem Placed.same (h : s.Placed) (hs : SamePools s s') : s'.Placed := by
  refine ⟨?_, ?_, ?_, ?_⟩
  · intro p c hc ho
    exact hs.willBePlaced.mpr (h.member p c (hs.connections p ▸ hc) (hs.open_of_open ho))
  · intro m hm ho
    rw [hs.authorization]
    exact h.held m (hs.replace ▸ hm) (hs.open_of_open ho)
  · intro p m hp
    rw [hs.authorization, hs.tunnelPools]
    exact h.pushing p m (hs.replace ▸ hp)
  · intro t c hr ho
    simp only [hs.connections, hs.replace]
    rcases hs.returned t c _ hr with hold | ⟨hne, -⟩
    · exact h.occupied t c hold (hs.open_of_open ho)
    · exact absurd rfl hne

theorem Placed.insert {t : Nat} {c : ServerTunnel} {p : PoolId} {member : PoolMember}
    {pool : ActiveClientPool} {admission' : TunnelConnectionAdmission} (h : s.Placed)
    (hp : s.closed c = true ∨ s.WillBePlaced p c.clientIdentity)
    (hok : s.Inserts p c member pool admission') :
    Placed (s.inserted t p member pool admission' c) := by
  obtain ⟨rfl, -, -, -, -, hm, -⟩ := ActiveClientPool.tryRegister_eq_ok hok
  have hco : pool.connections = (s.pools p).connections ++ [member.connection] := by
    simp [ActiveClientPool.connections, hm]
  refine ⟨?_, h.held, h.pushing, ?_⟩
  · intro q c hc ho
    rcases mem_setPool.mp hc with ⟨rfl, hin⟩ | ⟨-, hin⟩
    · rw [hco, List.mem_append, List.mem_singleton] at hin
      rcases hin with hin | rfl
      · exact h.member q c hin ho
      · refine hp.resolve_left fun hcl => ?_
        cases ho.symm.trans hcl
    · exact h.member q c hin ho
  · intro t' c hr ho
    rcases registers_setRegister.mp hr with ⟨-, hn⟩ | ⟨-, hr⟩
    · cases hn
      exact .inl ⟨p, mem_setPool.mpr (.inl ⟨rfl, by simp [hco]⟩)⟩
    · refine (h.occupied t' c hr ho).imp_left ?_
      rintro ⟨q, hq⟩
      exact ⟨q, mem_setPool_of_mem (s := s) hq fun hc => hco ▸ List.mem_append_left _ hc⟩

theorem Placed.remove {w : Nat} {watcher : CloseWatcher}
    {admission' : TunnelConnectionAdmission} (h : s.Placed) (how : s.HasOwners)
    (hw : s.watchers w = some watcher) (hc : s.closed watcher.connection = true) :
    Placed ({ s with
      watchers := Function.update s.watchers w none
      admission := admission' }.setPool watcher.pool
        ((s.pools watcher.pool).removeMember watcher.memberId).2) := by
  refine ⟨?_, h.held, h.pushing, ?_⟩
  · intro q c hc ho
    exact h.member q c (mem_of_mem_removeMember (s := s) hc) ho
  · intro t c hr ho
    refine (h.occupied t c hr ho).imp_left ?_
    rintro ⟨q, hq⟩
    refine ⟨q, mem_setPool_of_mem (s := s) hq fun hq => ?_⟩
    obtain ⟨m, hm, rfl⟩ := ActiveClientPool.mem_connections.mp hq
    -- An open member is not the one the watcher removes.
    have hid : m.memberId ≠ watcher.memberId := by
      intro hid
      cases ho.symm.trans (how.closed_of_removed hw hc hm hid)
    exact ActiveClientPool.mem_connections.mpr
      ⟨m, ActiveClientPool.mem_removeMember.mpr ⟨hm, hid⟩, rfl⟩

theorem Refused.step {a : Action} (h : s.Refused) (hs : PoolsStep s a s') : s'.Refused := by
  intro t c o hr hne
  cases hs with
  | same hsa =>
    rcases hsa.returned t c o hr with hold | ⟨-, hc⟩
    · exact hsa.closed c (h t c o hold hne)
    · exact hc
  | @insert t' c' p member pool admission' _ _ =>
    rcases registers_setRegister.mp hr with ⟨-, hn⟩ | ⟨-, hr⟩
    · cases hn
      exact absurd rfl hne
    · exact h t c o hr hne
  | replace hre =>
    cases hre with
    | closePool => exact close_closed.mpr (.inl (h t c o hr hne))
    | _ =>
      exact h t c o hr hne
  | _ => exact h t c o hr hne

end Steps

/-- What a run whose insertions are in place keeps. -/
structure PlacementInv (s : TunnelRegistry) : Prop where
  layout : s.Layout
  owners : s.HasOwners
  refused : s.Refused
  placed : s.Placed

theorem placementInv_fromAuthorizationWithAdmission (snapshot : ManagedSnapshot)
    (limits : ServerAdmissionLimits) :
    (fromAuthorizationWithAdmission snapshot limits).PlacementInv where
  layout := layout_fromAuthorizationWithAdmission snapshot limits
  owners := hasOwners_fromAuthorizationWithAdmission snapshot limits
  refused _ _ _ hr := by cases hr
  placed := placed_fromAuthorizationWithAdmission snapshot limits

theorem PlacementInv.step {a : Action} (h : s.PlacementInv) (hok : s.InsertsInPlace a)
    (hst : system.step s a = some s') : s'.PlacementInv := by
  have hs := poolsStep_of_step hst
  refine ⟨h.layout.step hs, h.owners.step hs, h.refused.step hs, ?_⟩
  cases hs with
  | same hsa => exact h.placed.same hsa
  | @insert t c p member pool admission' hr hre =>
    have hi : (c, p) ∈ s.insertion (.pollRegister t) := by simp [insertion, hr, hre]
    exact h.placed.insert (hok _ hi) hre
  | remove hw hc => exact h.placed.remove h.owners hw hc
  | release =>
    exact ⟨h.placed.member, h.placed.held, h.placed.pushing, h.placed.occupied⟩
  | start hr =>
    have hm := h.placed.member
    simp only [WillBePlaced, hr] at hm
    exact h.placed.of_moved rfl rfl rfl hm (by rw [hr]; rfl) (fun _ => rfl) rfl
  | replace hrp => exact h.placed.replaceStep h.layout hrp

/-- With no replacement in progress, an open connection that placement covers is in
its identity's pool. -/
theorem Placed.exists_poolFor (h : s.Placed) (hn : s.replace = none) {t : Nat} {c : ServerTunnel}
    (hr : s.registers t = some (.returned c .registered)) (ho : s.closed c = false) :
    ∃ p, c ∈ (s.pools p).connections ∧
      poolFor s.authorization.snapshot s.tunnelPools c.clientIdentity = some p := by
  have hoc := h.occupied t c hr ho
  rw [hn] at hoc
  rcases hoc with ⟨p, hp⟩ | ⟨m, hm, -⟩
  · have hpl := h.member p c hp ho
    rw [WillBePlaced, hn] at hpl
    exact ⟨p, hp, hpl⟩
  · cases hm

theorem PlacementInv.settled (h : s.PlacementInv) (hq : s.Quiescent) : s.Settled := by
  have hn : s.replace = none := Option.isNone_iff_eq_none.mp hq.1
  constructor
  · intro t c hr ho
    obtain ⟨p, hp, hf⟩ := h.placed.exists_poolFor hn hr ho
    obtain ⟨i, hi, hg⟩ := Option.bind_eq_some_iff.mp hf
    refine ⟨i, p, hi, hg, hp, ?_⟩
    intro j q hj hc
    have hq := h.placed.member q c hc ho
    rw [WillBePlaced, hn] at hq
    cases hf.symm.trans hq
    obtain ⟨hlt, -⟩ := List.getElem?_eq_some_iff.mp hj
    exact (List.getElem?_inj hlt h.layout.nodup).mp (hj.trans hg.symm)
  · intro t c o hr hun
    by_cases ho : o = .registered
    · subst ho
      cases hc : s.closed c with
      | true => rfl
      | false =>
        obtain ⟨p, -, hf⟩ := h.placed.exists_poolFor hn hr hc
        exact absurd (mem_of_poolFor hf).2 hun
    · exact h.refused t c o hr ho

/-- In a run whose insertions are all in place, whenever nothing is in progress
every registered connection is in its pool and every untrusted one is closed. -/
theorem settled_of_insertsInPlace (snapshot : ManagedSnapshot) (limits : ServerAdmissionLimits)
    (s : TunnelRegistry)
    (hrun : system.Steps InsertsInPlace (fromAuthorizationWithAdmission snapshot limits) s)
    (hq : s.Quiescent) : s.Settled := by
  have hi := hrun.invariant (fun s a s' h hok hs => h.step hok hs)
    (placementInv_fromAuthorizationWithAdmission snapshot limits)
  exact hi.settled hq

/-- A connection that survives a change of its Tunnel. -/
theorem settled_after_rehoming :
    ∃ s, system.Steps InsertsInPlace (fromAuthorizationWithAdmission .empty {}) s ∧
      s.Quiescent ∧ s.registers 0 = some (.returned ⟨0, sampleIdentity 1⟩ .registered) ∧
      s.closed ⟨0, sampleIdentity 1⟩ = false ∧ s.Settled := by
  have he : ∃ s ∈ system.execWhile InsertsInPlace (fromAuthorizationWithAdmission .empty {})
      (replaceFor [sampleTunnel "a" [sampleIdentity 1]] 6 ++ registerFor (sampleIdentity 1) 0 ++
        replaceFor [sampleTunnel "b" [sampleIdentity 1]] 9),
      (s.Quiescent ∧ s.registers 0 = some (.returned ⟨0, sampleIdentity 1⟩ .registered)) ∧
        s.closed ⟨0, sampleIdentity 1⟩ = false := by
    decide
  obtain ⟨s, hs, ⟨hq, hre⟩, ho⟩ := he
  have hr := Lts.Steps.of_execWhile hs
  exact ⟨s, hr, hq, hre, ho, settled_of_insertsInPlace _ _ s hr hq⟩

/-- A commit that revokes an identity passes between a registration's read of its
pool and its insertion: the connection stays registered and open. -/
theorem register_races_commit :
    ∃ s, system.Reaches (fromAuthorizationWithAdmission .empty {}) s ∧ s.Quiescent ∧
      ¬ s.Settled := by
  have he : ∃ s ∈ system.exec (fromAuthorizationWithAdmission .empty {})
      (replaceFor [sampleTunnel "a" [sampleIdentity 1]] 6 ++
        [.register (sampleIdentity 1), .pollRegister 0, .pollRegister 0] ++
        replaceFor [] 9 ++ [.pollRegister 0]),
      (s.Quiescent ∧ s.registers 0 = some (.returned ⟨0, sampleIdentity 1⟩ .registered)) ∧
        sampleIdentity 1 ∉ s.authorization.snapshot.trusted ∧
        s.closed ⟨0, sampleIdentity 1⟩ = false := by
    decide
  obtain ⟨s, hs, ⟨hq, hr⟩, hun, ho⟩ := he
  refine ⟨s, .of_exec hs, hq, fun hse => ?_⟩
  cases ho.symm.trans (hse.revoked 0 _ _ hr hun)

end TunnelRegistry

end Runewarp.Server
