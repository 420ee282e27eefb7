import Runewarp.Server.RegistrySteps

/-!
# Realignment of the pool vector

Invariants of the registry that hold in every run.  `Layout`: the vector holds
allocated pools, none twice, and has one for every Tunnel when a replacement
adopts members.  `Owned`: a member ID of a pool belongs to one connection for
good, so that a close watcher only ever removes a member whose connection has
closed.
-/

namespace Runewarp.Server

namespace TunnelRegistry

/-! ## What a replacement holds -/

/-- The members a replacement has detached from their pools. -/
def detached : Option ReplaceTask → List TakenPoolMember
  | some (.taking _ _ _ taken _) => taken
  | some (.adopting _ todo _) => todo
  | some (.adoptPush _ _ member todo _) => member.toTakenPoolMember :: todo
  | _ => []

/-- The member a replacement is about to push, with its pool. -/
def pendingPush : Option ReplaceTask → Option (PoolId × PoolMember)
  | some (.adoptPush _ p member _ _) => some (p, member)
  | _ => none

variable {p : PoolId} {m : PoolMember} {id : TunnelId} {ids : List TunnelId} {pools : List PoolId}
  {s s' : TunnelRegistry}

theorem mem_detached_of_pendingPush {r : Option ReplaceTask} (h : pendingPush r = some (p, m)) :
    m.toTakenPoolMember ∈ detached r := by
  unfold pendingPush at h
  split at h
  · cases h
    exact .head _
  · cases h

/-! ## The rebuilt vector -/

theorem mem_zip_of_lookup_foldl_insert :
    ∀ {entries : List (TunnelId × PoolId)} {byId : HashMap TunnelId PoolId},
      (entries.foldl (fun byId entry => byId.insert entry.1 entry.2) byId).lookup id = some p →
      byId.lookup id = some p ∨ (id, p) ∈ entries
  | [], byId, h => .inl h
  | entry :: entries, byId, h => by
      rw [List.foldl_cons] at h
      rcases mem_zip_of_lookup_foldl_insert h with hb | hm
      · by_cases hid : id = entry.1
        · subst hid
          rw [AList.lookup_insert] at hb
          cases hb
          exact .inr (.head _)
        · rw [AList.lookup_insert_ne hid] at hb
          exact .inl hb
      · exact .inr (.tail _ hm)

theorem mem_zip_of_lookup_poolsById (h : (poolsById ids pools).lookup id = some p) :
    (id, p) ∈ ids.zip pools := by
  rcases mem_zip_of_lookup_foldl_insert h with he | hm
  · cases he
  · exact hm

theorem lookup_foldl_insert_of_notMem :
    ∀ {entries : List (TunnelId × PoolId)} {byId : HashMap TunnelId PoolId},
      id ∉ entries.map Prod.fst →
      (entries.foldl (fun byId entry => byId.insert entry.1 entry.2) byId).lookup id =
        byId.lookup id
  | [], _, _ => rfl
  | entry :: entries, byId, h => by
      rw [List.map_cons, List.mem_cons, not_or] at h
      rw [List.foldl_cons, lookup_foldl_insert_of_notMem h.2, AList.lookup_insert_ne h.1]

/-- With distinct Tunnel IDs, `pools_by_id` keeps every pair. -/
theorem lookup_foldl_insert :
    ∀ {entries : List (TunnelId × PoolId)} {byId : HashMap TunnelId PoolId},
      (entries.map Prod.fst).Nodup → (id, p) ∈ entries →
      (entries.foldl (fun byId entry => byId.insert entry.1 entry.2) byId).lookup id = some p
  | entry :: entries, byId, hn, hm => by
      obtain ⟨hno, hn⟩ := List.nodup_cons.mp hn
      rw [List.foldl_cons]
      rcases List.mem_cons.mp hm with rfl | hm
      · rw [lookup_foldl_insert_of_notMem hno, AList.lookup_insert]
      · exact lookup_foldl_insert hn hm

theorem lookup_poolsById {i : Nat} (hn : ids.Nodup) (hl : pools.length = ids.length)
    (hi : ids[i]? = some id) (hp : pools[i]? = some p) :
    (poolsById ids pools).lookup id = some p := by
  refine lookup_foldl_insert ?_ ?_
  · rw [List.map_fst_zip (Nat.le_of_eq hl.symm)]
    exact hn
  · refine List.mem_of_getElem? (i := i) ?_
    rw [List.getElem?_zip_eq_some]
    exact ⟨hi, hp⟩

/-- Distinct Tunnel IDs keep distinct pools. -/
theorem poolsById_injective (hn : pools.Nodup) {id' : TunnelId}
    (h : (poolsById ids pools).lookup id = some p)
    (h' : (poolsById ids pools).lookup id' = some p) :
    id = id' := by
  obtain ⟨i, hi, he⟩ := List.mem_iff_getElem.mp (mem_zip_of_lookup_poolsById h)
  obtain ⟨j, hj, he'⟩ := List.mem_iff_getElem.mp (mem_zip_of_lookup_poolsById h')
  rw [List.getElem_zip, Prod.mk.injEq] at he he'
  have hij : i = j := (hn.getElem_inj_iff).mp (he.2.trans he'.2.symm)
  subst hij
  exact he.1.symm.trans he'.1

theorem length_rebuildPools :
    ∀ (ids : List TunnelId) (byId : HashMap TunnelId PoolId) (fresh : PoolId),
      (rebuildPools ids byId fresh).1.length = ids.length
  | [], _, _ => rfl
  | id :: ids, byId, fresh => by
      simp only [rebuildPools]
      split <;> simp [length_rebuildPools ids]

/-- A Tunnel ID that has a pool keeps it, wherever it stands in the next snapshot. -/
theorem getElem?_rebuildPools :
    ∀ {ids : List TunnelId} {byId : HashMap TunnelId PoolId} {fresh : PoolId} {j : Nat},
      ids.Nodup → ids[j]? = some id → byId.lookup id = some p →
      (rebuildPools ids byId fresh).1[j]? = some p
  | [], _, _, j, _, hj, _ => by cases hj
  | head :: ids, byId, fresh, 0, hn, hj, hp => by
      cases hj
      simp only [rebuildPools, hp]
      rfl
  | head :: ids, byId, fresh, j + 1, hn, hj, hp => by
      obtain ⟨hno, hn⟩ := List.nodup_cons.mp hn
      rw [List.getElem?_cons_succ] at hj
      have hne : id ≠ head := fun he => hno (he ▸ List.mem_of_getElem? hj)
      simp only [rebuildPools]
      split
      · rw [List.getElem?_cons_succ]
        exact getElem?_rebuildPools hn hj (by rw [AList.lookup_erase_ne hne, hp])
      · rw [List.getElem?_cons_succ]
        exact getElem?_rebuildPools hn hj hp

theorem le_rebuildPools :
    ∀ (ids : List TunnelId) (byId : HashMap TunnelId PoolId) (fresh : PoolId),
      fresh ≤ (rebuildPools ids byId fresh).2
  | [], _, _ => le_rfl
  | id :: ids, byId, fresh => by
      simp only [rebuildPools]
      split
      · exact le_rebuildPools ids _ fresh
      · exact Nat.le_of_succ_le (le_rebuildPools ids byId (fresh + 1))

/-- A rebuilt pool is one kept under some Tunnel ID, or a new one. -/
theorem mem_rebuildPools :
    ∀ {ids : List TunnelId} {byId : HashMap TunnelId PoolId} {fresh : PoolId},
      p ∈ (rebuildPools ids byId fresh).1 →
      (∃ id, byId.lookup id = some p) ∨
        (fresh ≤ p ∧ p < (rebuildPools ids byId fresh).2)
  | [], _, _, h => by cases h
  | id :: ids, byId, fresh, h => by
      simp only [rebuildPools] at h ⊢
      split at h
      · next q hq =>
        rcases List.mem_cons.mp h with rfl | hr
        · exact .inl ⟨id, hq⟩
        · rcases mem_rebuildPools hr with ⟨id', hid'⟩ | hf
          · by_cases hne : id' = id
            · rw [hne, AList.lookup_erase] at hid'
              cases hid'
            · rw [AList.lookup_erase_ne hne] at hid'
              exact .inl ⟨id', hid'⟩
          · exact .inr hf
      · next hq =>
        have hle := le_rebuildPools ids byId (fresh + 1)
        rcases List.mem_cons.mp h with rfl | hr
        · exact .inr ⟨le_rfl, hle⟩
        · rcases mem_rebuildPools hr with hk | ⟨hlo, hhi⟩
          · exact .inl hk
          · exact .inr ⟨Nat.le_of_succ_le hlo, hhi⟩

theorem nodup_rebuildPools :
    ∀ {ids : List TunnelId} {byId : HashMap TunnelId PoolId} {fresh : PoolId},
      (∀ id id' p, byId.lookup id = some p → byId.lookup id' = some p → id = id') →
      (∀ id p, byId.lookup id = some p → p < fresh) →
      (rebuildPools ids byId fresh).1.Nodup
  | [], _, _, _, _ => List.nodup_nil
  | id :: ids, byId, fresh, hi, hlt => by
      simp only [rebuildPools]
      split
      · next q hq =>
        -- What is left after `remove` no longer maps anything to `q`.
        have he : ∀ id' p, (byId.erase id).lookup id' = some p →
            id' ≠ id ∧ byId.lookup id' = some p := by
          intro id' p h
          by_cases hne : id' = id
          · rw [hne, AList.lookup_erase] at h
            cases h
          · rw [AList.lookup_erase_ne hne] at h
            exact ⟨hne, h⟩
        refine List.nodup_cons.mpr ⟨fun hm => ?_, nodup_rebuildPools ?_ ?_⟩
        · rcases mem_rebuildPools hm with ⟨id', hid'⟩ | ⟨hlo, -⟩
          · obtain ⟨hne, hid'⟩ := he id' q hid'
            exact hne (hi id' id q hid' hq)
          · exact absurd (hlt id q hq) (Nat.not_lt.mpr hlo)
        · intro id₁ id₂ p h₁ h₂
          exact hi id₁ id₂ p (he id₁ p h₁).2 (he id₂ p h₂).2
        · intro id' p h
          exact hlt id' p (he id' p h).2
      · refine List.nodup_cons.mpr ⟨fun hm => ?_, nodup_rebuildPools hi ?_⟩
        · rcases mem_rebuildPools hm with ⟨id', hid'⟩ | ⟨hlo, -⟩
          · exact absurd (hlt id' fresh hid') (Nat.lt_irrefl fresh)
          · exact absurd hlo (Nat.not_succ_le_self fresh)
        · intro id' p h
          exact Nat.lt_succ_of_lt (hlt id' p h)

/-! ## Layout -/

/-- What a replacement remembers.  Before the commit, `previous` is the installed
snapshot; after it, `next` is.  The pools still to visit are in the vector, and
the adoption loop runs over a vector with one pool per Tunnel of `next`. -/
def Remembers (s : TunnelRegistry) : Option ReplaceTask → Prop
  | some (.awaitPools previous _) => previous = s.authorization
  | some (.locked previous _) => previous = s.authorization
  | some (.closing _ next _ todo _) => next = s.authorization ∧ todo ⊆ s.tunnelPools
  | some (.taking _ next todo _ _) => next = s.authorization ∧ todo ⊆ s.tunnelPools
  | some (.adopting next _ _) =>
    next = s.authorization ∧ s.tunnelPools.length = next.snapshot.tunnelIds.length
  | some (.adoptPush next _ _ _ _) =>
    next = s.authorization ∧ s.tunnelPools.length = next.snapshot.tunnelIds.length
  | some (.resetting next _) => next = s.authorization
  | some (.finishing _) => True
  | none => True

/-- The vector holds allocated pools, none twice. -/
structure Layout (s : TunnelRegistry) : Prop where
  nodup : s.tunnelPools.Nodup
  lt_next : ∀ p ∈ s.tunnelPools, p < s.nextPool
  remembers : s.Remembers s.replace

theorem layout_fromAuthorizationWithAdmission (snapshot : ManagedSnapshot)
    (limits : ServerAdmissionLimits) : (fromAuthorizationWithAdmission snapshot limits).Layout where
  nodup := List.nodup_range
  lt_next _ h := List.mem_range.mp h
  remembers := trivial

/-- A pool of the rebuilt vector was in the vector, or is new. -/
theorem mem_rebuilt {previous next : SnapshotRef} (h : p ∈ (s.rebuilt previous next).1) :
    p ∈ s.tunnelPools ∨ (s.nextPool ≤ p ∧ p < (s.rebuilt previous next).2) := by
  rcases mem_rebuildPools h with ⟨id, hid⟩ | hf
  · exact .inl (List.of_mem_zip (mem_zip_of_lookup_poolsById hid)).2
  · exact .inr hf

theorem Layout.rebuilt (h : s.Layout) (previous next : SnapshotRef) :
    (s.rebuilt previous next).1.Nodup ∧
      (∀ p ∈ (s.rebuilt previous next).1, p < (s.rebuilt previous next).2) ∧
      (s.rebuilt previous next).1.length = next.snapshot.tunnelIds.length := by
  refine ⟨?_, ?_, length_rebuildPools _ _ _⟩
  · refine nodup_rebuildPools (fun id id' p => poolsById_injective h.nodup) ?_
    intro id p hp
    exact h.lt_next p (List.of_mem_zip (mem_zip_of_lookup_poolsById hp)).2
  · intro p hp
    rcases mem_rebuilt hp with hold | ⟨-, hlt⟩
    · exact lt_of_lt_of_le (h.lt_next p hold) (le_rebuildPools _ _ _)
    · exact hlt

theorem Layout.replaceStep (h : s.Layout) (hs : ReplaceStep s s') : s'.Layout := by
  have hre := h.remembers
  cases hs with
  | lock hr | revoke hr | discard hr | adopt hr | push hr =>
    rw [hr] at hre
    exact ⟨h.nodup, h.lt_next, hre⟩
  | closed hr =>
    rw [hr] at hre
    exact ⟨h.nodup, h.lt_next, hre.1, List.Subset.refl _⟩
  | closePool hr | takePool hr =>
    rw [hr] at hre
    exact ⟨h.nodup, h.lt_next, hre.1, (List.cons_subset.mp hre.2).2⟩
  | rebuild hr =>
    rw [hr] at hre
    obtain ⟨hn, hlt, hl⟩ := h.rebuilt _ _
    exact ⟨hn, hlt, hre.1, hl⟩
  | unlock hr =>
    rw [hr] at hre
    exact ⟨h.nodup, h.lt_next, hre.1⟩
  | reset hr | finish hr => exact ⟨h.nodup, h.lt_next, trivial⟩
  | _ => exact ⟨h.nodup, h.lt_next, rfl, List.Subset.refl _⟩

theorem SamePools.remembers (h : SamePools s s') :
    s'.Remembers s'.replace ↔ s.Remembers s.replace := by
  rw [h.replace]
  unfold Remembers
  split <;> simp only [h.authorization, h.tunnelPools]

theorem Layout.step {a : Action} (h : s.Layout) (hs : PoolsStep s a s') : s'.Layout := by
  cases hs with
  | same hsa =>
    refine ⟨?_, ?_, hsa.remembers.mpr h.remembers⟩
    · rw [hsa.tunnelPools]
      exact h.nodup
    · rw [hsa.tunnelPools, hsa.nextPool]
      exact h.lt_next
  | insert => exact ⟨h.nodup, h.lt_next, h.remembers⟩
  | remove => exact ⟨h.nodup, h.lt_next, h.remembers⟩
  | release => exact ⟨h.nodup, h.lt_next, h.remembers⟩
  | start hr => exact ⟨h.nodup, h.lt_next, rfl⟩
  | replace hst => exact h.replaceStep hst

/-! ## Member IDs -/

/-- Member ID `k` of pool `p` was handed out to connection `c`. -/
def Issued (s : TunnelRegistry) (owner : PoolId → Nat → ServerTunnel) (p : PoolId) (k : Nat)
    (c : ServerTunnel) : Prop :=
  k < (s.pools p).nextMemberId ∧ owner p k = c

/-- Members, close watchers and the member about to be pushed carry IDs that were
handed out to their connection. -/
structure Owned (s : TunnelRegistry) (owner : PoolId → Nat → ServerTunnel) : Prop where
  member : ∀ p, ∀ m ∈ (s.pools p).members, s.Issued owner p m.memberId m.connection
  watcher : ∀ w watcher, s.watchers w = some watcher →
    s.Issued owner watcher.pool watcher.memberId watcher.connection
  pushing : ∀ p m, pendingPush s.replace = some (p, m) → s.Issued owner p m.memberId m.connection

/-- Every member ID belongs to one connection. -/
def HasOwners (s : TunnelRegistry) : Prop := ∃ owner, s.Owned owner

theorem hasOwners_fromAuthorizationWithAdmission (snapshot : ManagedSnapshot)
    (limits : ServerAdmissionLimits) :
    (fromAuthorizationWithAdmission snapshot limits).HasOwners := by
  refine ⟨fun _ _ => ⟨0, ⟨List.replicate 32 0, rfl⟩⟩, ?_, ?_, ?_⟩
  · intro p m hm
    cases hm
  · intro w watcher hw
    cases hw
  · intro p m hp
    cases hp

/-- The owners after pool `p` handed its next ID to `c`. -/
def handOut (s : TunnelRegistry) (owner : PoolId → Nat → ServerTunnel) (p : PoolId)
    (c : ServerTunnel) : PoolId → Nat → ServerTunnel :=
  fun q k => if q = p ∧ k = (s.pools p).nextMemberId then c else owner q k

section HandOut

variable {s s' : TunnelRegistry} {owner : PoolId → Nat → ServerTunnel} {p : PoolId}
  {pool : ActiveClientPool} {c : ServerTunnel}

/-- IDs handed out before keep their owner. -/
theorem Issued.handOut {q : PoolId} {k : Nat} {d : ServerTunnel}
    (hp : s'.pools = Function.update s.pools p pool)
    (hn : pool.nextMemberId = (s.pools p).nextMemberId + 1) (h : s.Issued owner q k d) :
    s'.Issued (s.handOut owner p c) q k d := by
  obtain ⟨hlt, ho⟩ := h
  rw [Issued, hp, TunnelRegistry.handOut]
  by_cases hq : q = p
  · subst hq
    rw [Function.update_self, hn, if_neg fun hk => absurd hk.2 (Nat.ne_of_lt hlt)]
    exact ⟨Nat.lt_succ_of_lt hlt, ho⟩
  · rw [Function.update_of_ne hq, if_neg fun hk => hq hk.1]
    exact ⟨hlt, ho⟩

theorem issued_handOut (hp : s'.pools = Function.update s.pools p pool)
    (hn : pool.nextMemberId = (s.pools p).nextMemberId + 1) :
    s'.Issued (s.handOut owner p c) p (s.pools p).nextMemberId c := by
  rw [Issued, hp, Function.update_self, hn, TunnelRegistry.handOut, if_pos ⟨rfl, rfl⟩]
  exact ⟨Nat.lt_succ_self _, rfl⟩

end HandOut

/-- A step that hands out no ID keeps the owners if what carries an ID afterwards
carried it before. -/
theorem Owned.of_subset {owner : PoolId → Nat → ServerTunnel} (h : s.Owned owner)
    (hn : ∀ p, (s'.pools p).nextMemberId = (s.pools p).nextMemberId)
    (hme : ∀ p, ∀ m ∈ (s'.pools p).members,
      m ∈ (s.pools p).members ∨ pendingPush s.replace = some (p, m))
    (hwa : ∀ w watcher, s'.watchers w = some watcher → s.watchers w = some watcher)
    (hpu : ∀ p m, pendingPush s'.replace = some (p, m) → pendingPush s.replace = some (p, m)) :
    s'.Owned owner where
  member p m hm := by
    rw [Issued, hn]
    rcases hme p m hm with hold | hps
    · exact h.member p m hold
    · exact h.pushing p m hps
  watcher w watcher hw := by
    rw [Issued, hn]
    exact h.watcher w watcher (hwa w watcher hw)
  pushing p m hp := by
    rw [Issued, hn]
    exact h.pushing p m (hpu p m hp)

theorem HasOwners.replaceStep (h : s.HasOwners) (hs : ReplaceStep s s') : s'.HasOwners := by
  obtain ⟨owner, h⟩ := h
  cases hs with
  | @takePool previous next p todo taken n hr =>
    refine ⟨owner, h.of_subset ?_ ?_ (fun _ _ hw => hw) ?_⟩
    · exact pools_setPool_congr ActiveClientPool.nextMemberId rfl
    · intro q m hm
      rcases mem_members_setPool.mp hm with ⟨-, hn⟩ | ⟨-, hm⟩
      · cases hn
      · exact .inl hm
    · intro p m hp
      cases hp
  | @adopt next member todo n i p hr hi hp =>
    refine ⟨s.handOut owner p member.connection, ?_, ?_, ?_⟩
    · intro q m hm
      refine (h.member q m ?_).handOut rfl rfl
      rcases mem_members_setPool.mp hm with ⟨rfl, hm⟩ | ⟨-, hm⟩ <;> exact hm
    · intro w watcher hw
      rcases watchers_spawnWatcher.mp hw with ⟨-, rfl⟩ | ⟨-, hw⟩
      · exact issued_handOut rfl rfl
      · simp only [setPool] at hw
        by_cases hold : w = member.closeWatcher
        · rw [hold, Function.update_self] at hw
          cases hw
        · rw [Function.update_of_ne hold] at hw
          exact (h.watcher w watcher hw).handOut rfl rfl
    · intro q m hq
      cases hq
      exact issued_handOut rfl rfl
  | @push next p member todo n hr =>
    refine ⟨owner, h.of_subset ?_ ?_ (fun _ _ hw => hw) ?_⟩
    · exact pools_setPool_congr ActiveClientPool.nextMemberId rfl
    · intro q m hm
      refine ((mem_members_setPool_concat rfl).mp hm).imp_right ?_
      rintro ⟨rfl, rfl⟩
      rw [hr]
      rfl
    · intro p m hp
      cases hp
  | _ =>
    refine ⟨owner, h.of_subset (fun _ => rfl) (fun _ _ hm => .inl hm) (fun _ _ hw => hw) ?_⟩
    intro p m hp
    cases hp

theorem HasOwners.step {a : Action} (h : s.HasOwners) (hs : PoolsStep s a s') : s'.HasOwners := by
  cases hs with
  | same hsa =>
    obtain ⟨owner, h⟩ := h
    refine ⟨owner, h.of_subset hsa.nextMemberId ?_ ?_ ?_⟩
    · intro p m hm
      exact .inl (hsa.members p ▸ hm)
    · intro w watcher hw
      exact hsa.watchers ▸ hw
    · intro p m hp
      exact hsa.replace ▸ hp
  | @insert t c p member pool admission' hr hok =>
    obtain ⟨owner, h⟩ := h
    obtain ⟨rfl, hid, -, -, -, hme, hn⟩ := ActiveClientPool.tryRegister_eq_ok hok
    refine ⟨s.handOut owner p member.connection, ?_, ?_, ?_⟩
    · intro q m hm
      rcases (mem_members_setPool_concat (s := s) hme).mp hm with hm | ⟨rfl, rfl⟩
      · exact (h.member q m hm).handOut rfl hn
      · rw [hid]
        exact issued_handOut rfl hn
    · intro w watcher hw
      rcases watchers_spawnWatcher.mp hw with ⟨-, rfl⟩ | ⟨-, hw⟩
      · rw [hid]
        exact issued_handOut rfl hn
      · exact (h.watcher w watcher hw).handOut rfl hn
    · intro q m hq
      exact (h.pushing q m hq).handOut rfl hn
  | @remove w watcher hw hc =>
    obtain ⟨owner, h⟩ := h
    refine ⟨owner, h.of_subset ?_ ?_ ?_ (fun _ _ hp => hp)⟩
    · exact pools_setPool_congr ActiveClientPool.nextMemberId rfl
    · intro q m hm
      rcases mem_members_setPool.mp hm with ⟨rfl, hin⟩ | ⟨-, hin⟩
      · exact .inl (List.mem_of_mem_filter hin)
      · exact .inl hin
    · intro w' watcher' hw'
      simp only [setPool] at hw'
      by_cases he : w' = w
      · rw [he, Function.update_self] at hw'
        cases hw'
      · rwa [Function.update_of_ne he] at hw'
  | release =>
    obtain ⟨owner, h⟩ := h
    exact ⟨owner, h.of_subset (fun _ => rfl) (fun _ _ hm => .inl hm) (fun _ _ hw => hw)
      (fun _ _ hp => hp)⟩
  | start hr =>
    obtain ⟨owner, h⟩ := h
    refine ⟨owner, h.of_subset (fun _ => rfl) (fun _ _ hm => .inl hm) (fun _ _ hw => hw) ?_⟩
    intro p m hp
    cases hp
  | replace hst => exact h.replaceStep hst

/-- A close watcher names its own connection. -/
theorem HasOwners.connection_of_memberId (h : s.HasOwners) {w : Nat} {watcher : CloseWatcher}
    (hw : s.watchers w = some watcher) (hm : m ∈ (s.pools watcher.pool).members)
    (hid : m.memberId = watcher.memberId) : m.connection = watcher.connection := by
  obtain ⟨owner, h⟩ := h
  have hm' := (h.member _ m hm).2
  rw [hid, (h.watcher w watcher hw).2] at hm'
  exact hm'.symm

/-- A member that a close watcher removes has closed. -/
theorem HasOwners.closed_of_removed (h : s.HasOwners) {w : Nat} {watcher : CloseWatcher}
    (hw : s.watchers w = some watcher) (hc : s.closed watcher.connection = true)
    (hm : m ∈ (s.pools watcher.pool).members) (hid : m.memberId = watcher.memberId) :
    s.closed m.connection = true := by
  rw [h.connection_of_memberId hw hm hid]
  exact hc

end TunnelRegistry

end Runewarp.Server
