import Runewarp.Lib.Custody
import Runewarp.Server.Realignment

/-!
# Accounting of members and permits

A registered connection and its admission permit are one owned value.  It is in
a pool, held by the replacement in progress, or left to a task that waits for a
revoked connection to close.  `Accounted` says that every connection and every
permit is in one of these places at most once, and that permits which are held
are live.  `Allocated` says that members are only ever put into pools that have
been allocated.  Both hold in every run.
-/

namespace Runewarp.Server

namespace TunnelRegistry

/-! ## Calls of `register` -/

/-- A call of `register` is named after its connection. -/
def Named (s : TunnelRegistry) : Prop :=
  ∀ t task, s.registers t = some task → task.connection.id = t ∧ t < s.nextConnection

variable {s s' : TunnelRegistry} {a : Action} {p : PoolId}

theorem Named.step (h : s.Named) (hs : PoolsStep s a s') : s'.Named := by
  intro t task hr
  cases hs with
  | same hsa =>
    rcases hsa.started t task hr with ⟨old, hold, hc⟩ | hn
    · obtain ⟨hid, hlt⟩ := h t old hold
      exact ⟨hc ▸ hid, lt_of_lt_of_le hlt hsa.nextConnection⟩
    · exact hn
  | @insert t' c p member pool admission' hr' _ =>
    rcases registers_setRegister.mp hr with ⟨rfl, rfl⟩ | ⟨-, hr⟩
    · exact h t (.tryRegister c p) hr'
    · exact h t task hr
  | replace hre => cases hre <;> exact h t task hr
  | _ => exact h t task hr

/-! ## Pools -/

/-- Members are in allocated pools, and are only put into such. -/
structure Allocated (s : TunnelRegistry) : Prop where
  member : ∀ p c, c ∈ (s.pools p).connections → p < s.nextPool
  inserting : ∀ t c p, s.registers t = some (.tryRegister c p) → p < s.nextPool
  pushing : ∀ p m, pendingPush s.replace = some (p, m) → p < s.nextPool

theorem allocated_fromAuthorizationWithAdmission (snapshot : ManagedSnapshot)
    (limits : ServerAdmissionLimits) :
    (fromAuthorizationWithAdmission snapshot limits).Allocated where
  member p c hc := by cases hc
  inserting t c p hr := by cases hr
  pushing p m hp := by cases hp

theorem Allocated.replaceStep (h : s.Allocated) (hl : s.Layout) (hs : ReplaceStep s s') :
    s'.Allocated := by
  cases hs with
  | takePool hr =>
    refine ⟨?_, h.inserting, ?_⟩
    · intro q c hc
      rcases mem_setPool.mp hc with ⟨-, hn⟩ | ⟨-, hin⟩
      · cases hn
      · exact h.member q c hin
    · intro p m hp
      cases hp
  | @rebuild previous next taken n hr =>
    have hle : s.nextPool ≤ (s.rebuilt previous next).2 := le_rebuildPools _ _ _
    refine ⟨?_, ?_, ?_⟩
    · intro p c hc
      exact lt_of_lt_of_le (h.member p c hc) hle
    · intro t c p hr
      exact lt_of_lt_of_le (h.inserting t c p hr) hle
    · intro p m hp
      cases hp
  | adopt hr hi hp =>
    refine ⟨?_, h.inserting, ?_⟩
    · intro q c hc
      rcases mem_setPool.mp hc with ⟨rfl, hin⟩ | ⟨-, hin⟩ <;> exact h.member q c hin
    · intro q m hq
      cases hq
      exact hl.lt_next _ (List.mem_of_getElem? hp)
  | push hr =>
    refine ⟨?_, h.inserting, ?_⟩
    · intro q c hc
      rcases mem_setPool.mp hc with ⟨rfl, -⟩ | ⟨-, hin⟩
      · exact h.pushing q _ (by rw [hr]; rfl)
      · exact h.member q c hin
    · intro p m hp
      cases hp
  | _ =>
    refine ⟨h.member, h.inserting, ?_⟩
    intro p m hp
    cases hp

theorem Allocated.step (h : s.Allocated) (hl : s.Layout) (hs : PoolsStep s a s') :
    s'.Allocated := by
  cases hs with
  | same hsa =>
    refine ⟨?_, ?_, ?_⟩
    · intro p c hc
      rw [ActiveClientPool.connections, hsa.members p] at hc
      rw [hsa.nextPool]
      exact h.member p c hc
    · intro t c p hr
      rw [hsa.nextPool]
      rcases hsa.inserts t c p hr with hold | hf
      · exact h.inserting t c p hold
      · exact hl.lt_next p (mem_of_poolFor hf).1
    · intro p m hp
      rw [hsa.nextPool]
      exact h.pushing p m (hsa.replace ▸ hp)
  | @insert t c p member pool admission' hr hok =>
    refine ⟨?_, ?_, h.pushing⟩
    · intro q d hd
      rcases mem_setPool.mp hd with ⟨rfl, -⟩ | ⟨-, hin⟩
      · exact h.inserting t c q hr
      · exact h.member q d hin
    · intro t' d q hr'
      rcases registers_setRegister.mp hr' with ⟨-, hn⟩ | ⟨-, hr'⟩
      · cases hn
      · exact h.inserting t' d q hr'
  | remove hw hc =>
    refine ⟨?_, h.inserting, h.pushing⟩
    intro q c hc
    exact h.member q c (mem_of_mem_removeMember (s := s) hc)
  | release => exact ⟨h.member, h.inserting, h.pushing⟩
  | start hr =>
    refine ⟨h.member, h.inserting, ?_⟩
    intro p m hp
    cases hp
  | replace hst => exact h.replaceStep hl hst

/-! ## Custody of connections and permits -/

/-- Where a connection and its permit can be. -/
inductive Site where
  | pool (p : PoolId)
  | detached
  | released
deriving DecidableEq

/-- What a member owns. -/
def holding (m : TakenPoolMember) : ServerTunnel × TunnelConnectionPermit :=
  (m.connection, m.admissionPermit)

/-- The connections and permits at a site. -/
def held (s : TunnelRegistry) : Site → List (ServerTunnel × TunnelConnectionPermit)
  | .pool p => (s.pools p).members.map fun m => holding m.toTakenPoolMember
  | .detached => (detached s.replace).map holding
  | .released => s.releases

theorem mem_held_pool {c : ServerTunnel} :
    c ∈ (s.pools p).connections ↔ ∃ x ∈ s.held (.pool p), x.1 = c := by
  simp [ActiveClientPool.mem_connections, held, holding]

/-- The number of a permit. -/
def permitId (x : ServerTunnel × TunnelConnectionPermit) : Nat := x.2.id

/-- Every connection and every permit is held at most once; what is held belongs to
a registered connection, and its permit is live. -/
structure Accounted (s : TunnelRegistry) : Prop where
  connections : Custody.Once Prod.fst s.held
  permits : Custody.Once permitId s.held
  live : ∀ k, ∀ x ∈ s.held k, x.2 ∈ s.admission.live
  registered : ∀ k, ∀ x ∈ s.held k, s.registers x.1.id = some (.returned x.1 .registered)
  issued : ∀ permit ∈ s.admission.live, permit.id < s.admission.nextPermit

theorem accounted_fromAuthorizationWithAdmission (snapshot : ManagedSnapshot)
    (limits : ServerAdmissionLimits) :
    (fromAuthorizationWithAdmission snapshot limits).Accounted := by
  have hn : ∀ k, (fromAuthorizationWithAdmission snapshot limits).held k = [] := by
    intro k
    cases k <;> rfl
  refine ⟨Custody.once_nil.congr hn, Custody.once_nil.congr hn, ?_, ?_, ?_⟩
  · intro k x hx
    rw [hn] at hx
    cases hx
  · intro k x hx
    rw [hn] at hx
    cases hx
  · intro permit hp
    cases hp

section Accounts

variable {s s' : TunnelRegistry}

theorem Accounted.moved {a b : Site} (h : s.Accounted)
    (xs rest : List (ServerTunnel × TunnelConnectionPermit)) (hab : a ≠ b)
    (ha : s.held a = xs ++ rest) (ha' : s'.held a = rest)
    (hb : (s'.held b).Perm (s.held b ++ xs))
    (hk : ∀ k, k ≠ a → k ≠ b → s'.held k = s.held k)
    (had : s'.admission = s.admission) (hr : s'.registers = s.registers) :
    s'.Accounted := by
  have ho : ∀ k, ∀ x ∈ s'.held k, ∃ l, x ∈ s.held l := by
    intro k x hx
    by_cases hka : k = a
    · subst hka
      rw [ha'] at hx
      exact ⟨k, ha ▸ List.mem_append_right xs hx⟩
    · by_cases hkb : k = b
      · subst hkb
        rcases List.mem_append.mp (hb.subset hx) with hold | hn
        · exact ⟨k, hold⟩
        · exact ⟨a, ha ▸ List.mem_append_left rest hn⟩
      · exact ⟨k, hk k hka hkb ▸ hx⟩
  refine ⟨h.connections.moved hab ha ha' hb hk, h.permits.moved hab ha ha' hb hk, ?_, ?_, ?_⟩
  · intro k x hx
    obtain ⟨l, hl⟩ := ho k x hx
    exact had ▸ h.live l x hl
  · intro k x hx
    obtain ⟨l, hl⟩ := ho k x hx
    exact hr ▸ h.registered l x hl
  · exact had ▸ h.issued

theorem Accounted.dropped (h : s.Accounted)
    (gone : List (ServerTunnel × TunnelConnectionPermit))
    (hs : ∀ k, (s'.held k).Sublist (s.held k))
    (hg : ∀ x ∈ gone, ∃ l, x ∈ s.held l) (hn : ∀ k, ∀ x ∈ s'.held k, x ∉ gone)
    (ha : s'.admission = s.admission.releaseAll (gone.map Prod.snd))
    (hr : s'.registers = s.registers) : s'.Accounted := by
  refine ⟨h.connections.dropped hs, h.permits.dropped hs, ?_, ?_, ?_⟩
  · intro k x hx
    have hx' := (hs k).subset hx
    rw [ha]
    refine TunnelConnectionAdmission.mem_live_releaseAll (h.live k x hx') ?_
    intro hm
    obtain ⟨y, hy, hyx⟩ := List.mem_map.mp hm
    obtain ⟨l, hl⟩ := hg y hy
    have hxy : x = y := h.permits.eq hx' hl (by rw [permitId, permitId, hyx])
    exact hn k x hx (hxy ▸ hy)
  · intro k x hx
    exact hr ▸ h.registered k x ((hs k).subset hx)
  · intro permit hp
    rw [ha] at hp ⊢
    rw [TunnelConnectionAdmission.releaseAll_nextPermit]
    exact h.issued permit (TunnelConnectionAdmission.live_releaseAll_subset _ _ hp)

theorem Accounted.of_held (h : s.Accounted) (hh : ∀ k, s'.held k = s.held k)
    (ha : s'.admission = s.admission)
    (hr : ∀ k, ∀ x ∈ s.held k, s'.registers x.1.id = some (.returned x.1 .registered)) :
    s'.Accounted where
  connections := h.connections.congr hh
  permits := h.permits.congr hh
  live k x hx := ha ▸ h.live k x (hh k ▸ hx)
  registered k x hx := hr k x (hh k ▸ hx)
  issued := ha ▸ h.issued

end Accounts

theorem held_congr (hm : ∀ p, (s'.pools p).members = (s.pools p).members)
    (hd : (detached s'.replace).map holding = (detached s.replace).map holding)
    (hr : s'.releases = s.releases) : ∀ k, s'.held k = s.held k
  | .pool p => by rw [held, hm]; rfl
  | .detached => hd
  | .released => hr

theorem held_setPool_of_ne {q : PoolId} {pool : ActiveClientPool} (hq : q ≠ p) :
    (s.setPool p pool).held (.pool q) = s.held (.pool q) := by
  simp [held, setPool, Function.update_of_ne hq]

theorem Accounted.replaceStep (h : s.Accounted) (hs : ReplaceStep s s') : s'.Accounted := by
  cases hs with
  | lock hr | commit hr | commitKeeping hr | closePool hr | closed hr | rebuild hr
  | unlock hr | reset hr | finish hr =>
    refine h.of_held (held_congr (fun _ => rfl) ?_ rfl) rfl h.registered
    rw [hr]
    rfl
  | @takePool previous next p todo taken n hr =>
    refine h.moved (a := .pool p) (b := .detached) _ [] (by simp) (List.append_nil _).symm
      ?_ ?_ ?_ rfl rfl
    · simp [held, setPool, ActiveClientPool.takeMembers]
    · simp [held, hr, detached, ActiveClientPool.takeMembers, Function.comp_def]
    · intro k hka hkb
      cases k with
      | pool q => exact held_setPool_of_ne (by simpa using hka)
      | detached => exact absurd rfl hkb
      | released => rfl
  | @revoke next member todo n hr _ =>
    refine h.moved (a := .detached) (b := .released) [holding member] (todo.map holding)
      (by simp) ?_ rfl ?_ ?_ rfl rfl
    · simp [held, hr, detached]
    · exact (List.perm_append_singleton (holding member) s.releases).symm
    · intro k hka hkb
      cases k with
      | pool q => rfl
      | detached => exact absurd rfl hka
      | released => exact absurd rfl hkb
  | @discard next member todo n i hr _ _ =>
    have hh : s.held .detached = holding member :: todo.map holding := by
      simp [held, hr, detached]
    have hn := h.connections.nodup .detached
    rw [hh, List.map_cons, List.nodup_cons] at hn
    refine h.dropped [holding member] ?_ ?_ ?_ rfl rfl
    · intro k
      cases k with
      | pool q => exact List.Sublist.refl _
      | detached =>
        rw [hh]
        exact List.sublist_cons_self _ _
      | released => exact List.Sublist.refl _
    · intro x hx
      exact ⟨.detached, by rw [hh, List.mem_singleton.mp hx]; exact .head _⟩
    · intro k x hx hg
      obtain rfl := List.mem_singleton.mp hg
      have hm : holding member ∈ s.held .detached := hh ▸ (.head _)
      cases k with
      | pool q => cases h.connections.site_eq (k := .pool q) hx hm rfl
      | detached => exact hn.1 (List.mem_map_of_mem hx)
      | released => cases h.connections.site_eq (k := .released) hx hm rfl
  | @adopt next member todo n i p hr _ _ =>
    refine h.of_held (held_congr ?_ ?_ rfl) rfl h.registered
    · exact pools_setPool_congr (s := s) (p := p) ActiveClientPool.members rfl
    · rw [hr]
      rfl
  | @push next p member todo n hr =>
    refine h.moved (a := .detached) (b := .pool p) [holding member.toTakenPoolMember]
      (todo.map holding) (by simp) ?_ rfl ?_ ?_ rfl rfl
    · simp [held, hr, detached]
    · simp [held, setPool, ActiveClientPool.push]
    · intro k hka hkb
      cases k with
      | pool q => exact held_setPool_of_ne (by simpa using hkb)
      | detached => exact absurd rfl hka
      | released => rfl

/-- A connection that is being inserted is not held yet. -/
theorem Accounted.insert {t : Nat} {c : ServerTunnel} {member : PoolMember}
    {pool : ActiveClientPool} {admission' : TunnelConnectionAdmission} (h : s.Accounted)
    (hn : s.Named) (hr : s.registers t = some (.tryRegister c p))
    (hok : s.Inserts p c member pool admission') :
    Accounted (s.inserted t p member pool admission' c) := by
  obtain ⟨rfl, -, -, -, ha, hm, -⟩ := ActiveClientPool.tryRegister_eq_ok hok
  obtain ⟨hl, -, hid, hne⟩ := TunnelConnectionAdmission.tryAcquire_live ha
  have ht : member.connection.id = t := (hn t _ hr).1
  have ho : ∀ k, ∀ x ∈ s.held k, x.1.id ≠ t := by
    intro k x hx he
    have hrg := h.registered k x hx
    rw [he, hr] at hrg
    cases hrg
  have hpo : ∀ s' : TunnelRegistry, s'.pools = Function.update s.pools p pool →
      s'.held (.pool p) = s.held (.pool p) ++ [holding member.toTakenPoolMember] := by
    intro s' hs'
    simp [held, hs', hm]
  have hre : ∀ k, k ≠ .pool p →
      (s.inserted t p member pool admission' member.connection).held k = s.held k := by
    intro k hk
    cases k with
    | pool q => exact held_setPool_of_ne (s := s) (by simpa using hk)
    | detached => rfl
    | released => rfl
  refine ⟨h.connections.taken ?_ (hpo _ rfl) hre, h.permits.taken ?_ (hpo _ rfl) hre,
    ?_, ?_, ?_⟩
  · intro k x hx he
    exact ho k x hx (he ▸ ht)
  · intro k x hx he
    have hlt := h.issued _ (h.live k x hx)
    rw [show x.2.id = member.admissionPermit.id from he, hid] at hlt
    exact Nat.lt_irrefl _ hlt
  · intro k x hx
    show x.2 ∈ admission'.live
    rw [hl]
    by_cases hk : k = .pool p
    · subst hk
      rw [hpo _ rfl, List.mem_append, List.mem_singleton] at hx
      rcases hx with hx | rfl
      · exact .tail _ (h.live _ x hx)
      · exact .head _
    · rw [hre k hk] at hx
      exact .tail _ (h.live k x hx)
  · intro k x hx
    by_cases hk : k = .pool p
    · subst hk
      rw [hpo _ rfl, List.mem_append, List.mem_singleton] at hx
      rcases hx with hx | rfl
      · simp only [setRegister, Function.update_of_ne (ho _ x hx)]
        exact h.registered _ x hx
      · simp [setRegister, holding, ht]
    · rw [hre k hk] at hx
      simp only [setRegister, Function.update_of_ne (ho _ x hx)]
      exact h.registered k x hx
  · intro permit hp
    show permit.id < admission'.nextPermit
    replace hp : permit ∈ admission'.live := hp
    rw [hl] at hp
    rw [hne]
    rcases List.mem_cons.mp hp with rfl | hp
    · omega
    · exact Nat.lt_succ_of_lt (h.issued permit hp)

/-- A close watcher drops its member with its permit. -/
theorem Accounted.remove {w : Nat} {k : Nat} (h : s.Accounted) : Accounted ({ s with
      watchers := Function.update s.watchers w none
      admission := s.admission.releaseAll
        (((s.pools p).removeMember k).1.map fun m : PoolMember => m.admissionPermit) }.setPool p
          ((s.pools p).removeMember k).2) := by
  have hg : ∀ x ∈ ((s.pools p).removeMember k).1.map
      (fun m => holding m.toTakenPoolMember), x ∈ s.held (.pool p) := by
    intro x hx
    obtain ⟨m, hm, rfl⟩ := List.mem_map.mp hx
    exact List.mem_map_of_mem (List.mem_of_mem_filter hm)
  refine h.dropped (((s.pools p).removeMember k).1.map
    fun m => holding m.toTakenPoolMember) ?_ (fun x hx => ⟨_, hg x hx⟩) ?_ ?_ rfl
  · intro l
    cases l with
    | pool q =>
      by_cases hq : q = p
      · subst hq
        simp only [held, setPool, Function.update_self, ActiveClientPool.removeMember]
        exact List.filter_sublist.map _
      · rw [held_setPool_of_ne hq]
        exact List.Sublist.refl _
    | detached => exact List.Sublist.refl _
    | released => exact List.Sublist.refl _
  · intro l x hx hme
    have hold := hg x hme
    cases l with
    | pool q =>
      by_cases hq : q = p
      · subst hq
        simp only [held, setPool, Function.update_self] at hx
        obtain ⟨m, hm, rfl⟩ := List.mem_map.mp hx
        obtain ⟨m', hm', he⟩ := List.mem_map.mp hme
        have hme' := List.mem_of_mem_filter hm'
        have hk := ActiveClientPool.mem_removeMember.mp hm
        have hn := h.connections.nodup (.pool q)
        rw [held, List.map_map] at hn
        have hs : m' = m :=
          List.inj_on_of_nodup_map hn hme' hk.1 (congrArg Prod.fst he)
        subst hs
        simp only [ActiveClientPool.removeMember, List.mem_filter, decide_eq_true_eq] at hm'
        exact hk.2 hm'.2
      · rw [held_setPool_of_ne hq] at hx
        have hsi := h.connections.site_eq (k := .pool q) hx hold rfl
        exact hq (by simpa using hsi)
    | detached => cases h.connections.site_eq (k := .detached) hx hold rfl
    | released => cases h.connections.site_eq (k := .released) hx hold rfl
  · simp [setPool, holding, Function.comp_def]

theorem Accounted.step (h : s.Accounted) (hn : s.Named) (hs : PoolsStep s a s') : s'.Accounted := by
  cases hs with
  | same hsa =>
    refine h.of_held (held_congr hsa.members ?_ hsa.releases) hsa.admission ?_
    · rw [hsa.replace]
    · intro k x hx
      have hre := h.registered k x hx
      exact hsa.kept _ _ _ (Nat.ne_of_lt (hn _ _ hre).2) hre
  | insert hr hok => exact h.insert hn hr hok
  | remove hw hc => exact h.remove
  | @release c permit hm hc =>
    have hno : s.releases.Nodup := (h.connections.nodup .released).of_map _
    refine h.dropped [(c, permit)] ?_ ?_ ?_ rfl rfl
    · intro k
      cases k with
      | pool q => exact List.Sublist.refl _
      | detached => exact List.Sublist.refl _
      | released => exact List.erase_sublist
    · intro x hx
      exact ⟨.released, by rw [List.mem_singleton.mp hx]; exact hm⟩
    · intro k x hx hg
      obtain rfl := List.mem_singleton.mp hg
      cases k with
      | pool q => cases h.connections.site_eq (k := .pool q) (l := .released) hx hm rfl
      | detached => cases h.connections.site_eq (k := .detached) (l := .released) hx hm rfl
      | released => exact (hno.mem_erase_iff.mp hx).1 rfl
  | start hr =>
    refine h.of_held (held_congr (fun _ => rfl) ?_ rfl) rfl h.registered
    rw [hr]
    rfl
  | replace hst => exact h.replaceStep hst

/-! ## Every run -/

/-- What holds in every run. -/
structure CoreInv (s : TunnelRegistry) : Prop where
  layout : s.Layout
  named : s.Named
  allocated : s.Allocated
  accounted : s.Accounted

theorem CoreInv.step (h : s.CoreInv) (hs : PoolsStep s a s') : s'.CoreInv :=
  ⟨h.layout.step hs, h.named.step hs, h.allocated.step h.layout hs, h.accounted.step h.named hs⟩

theorem coreInv_fromAuthorizationWithAdmission (snapshot : ManagedSnapshot)
    (limits : ServerAdmissionLimits) :
    (fromAuthorizationWithAdmission snapshot limits).CoreInv :=
  ⟨layout_fromAuthorizationWithAdmission snapshot limits, fun _ _ hr => (by cases hr),
    allocated_fromAuthorizationWithAdmission snapshot limits,
    accounted_fromAuthorizationWithAdmission snapshot limits⟩

theorem coreInv_of_steps {ok : TunnelRegistry → Action → Prop} {snapshot : ManagedSnapshot}
    {limits : ServerAdmissionLimits}
    (hr : system.Steps ok (fromAuthorizationWithAdmission snapshot limits) s) : s.CoreInv :=
  hr.invariant (fun _ _ _ h _ hs => h.step (poolsStep_of_step hs))
    (coreInv_fromAuthorizationWithAdmission snapshot limits)

end TunnelRegistry

end Runewarp.Server
