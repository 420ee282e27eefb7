import Runewarp.Lib.Checks
import Runewarp.Server.Authorization

/-!
# What the maps of a snapshot hold

`build_authorization_maps` on Tunnels whose hostnames and identities are distinct: it fails
only for the Server's own hostname, and the maps it builds send every hostname and identity
to the index of its Tunnel and hold nothing else.
-/

namespace Runewarp.Server

open Checks

variable {index : Nat} {maps maps' : AuthorizationMaps} {serverHostname : ServerHostname}
  {tunnels : List ServerTunnelConfig}

/-- A map with some keys added, each at one value. -/
def Adds {κ : Type} [DecidableEq κ] (keys : List κ) (index : Nat) (m m' : HashMap κ Nat) : Prop :=
  ∀ k i, m'.lookup k = some i ↔ m.lookup k = some i ∨ k ∈ keys ∧ i = index

variable {κ : Type} {m m' : HashMap κ Nat} {k : κ} {keys : List κ} {ids : List TunnelId}

theorem Adds.insert [DecidableEq κ] (hk : k ∉ m) (h : Adds keys index (m.insert k index) m') :
    Adds (k :: keys) index m m' := by
  intro x i
  rw [h x i]
  by_cases hx : x = k
  · subst hx
    rw [AList.lookup_insert, AList.lookup_eq_none.mpr hk]
    simp [eq_comm]
  · rw [AList.lookup_insert_ne hx]
    simp [hx]

theorem notMem_insert [DecidableEq κ] (hk : k ∉ keys) (hn : ∀ x ∈ k :: keys, x ∉ m) :
    ∀ x ∈ keys, x ∉ m.insert k index := by
  intro x hx hm
  rcases (AList.mem_insert m).mp hm with rfl | hm
  · exact hk hx
  · exact hn x (.tail _ hx) hm

theorem Adds.notMem [DecidableEq κ] (h : Adds keys index m m') (hk : k ∉ m) (hke : k ∉ keys) :
    k ∉ m' := by
  rw [← AList.lookup_eq_none] at hk ⊢
  cases hl : m'.lookup k with
  | none => rfl
  | some i =>
    rcases (h k i).mp hl with h | ⟨hm, -⟩
    · rw [hk] at h
      cases h
    · exact absurd hm hke

theorem addClientIdentities_ok (index : Nat) (maps : AuthorizationMaps)
    {cs : List ClientIdentity} (hcs : cs.Nodup)
    (hn : ∀ c ∈ cs, c ∉ maps.clientIdentityToTunnel) :
    ∃ clients, addClientIdentities index cs maps =
        .ok { maps with clientIdentityToTunnel := clients } ∧
      Adds cs index maps.clientIdentityToTunnel clients := by
  induction cs generalizing maps with
  | nil => exact ⟨_, rfl, fun k i => by simp⟩
  | cons c cs ih =>
    obtain ⟨hc, hcs⟩ := List.nodup_cons.mp hcs
    have hf : c ∉ maps.clientIdentityToTunnel := hn c (by simp)
    obtain ⟨clients, heq, ha⟩ := ih ⟨maps.clientIdentityToTunnel.insert c index,
      maps.publicHostnameToTunnel⟩ hcs (notMem_insert hc hn)
    refine ⟨clients, ?_, ha.insert hf⟩
    rw [addClientIdentities, if_neg hf, heq]

theorem addPublicHostnames_ok (index : Nat) (maps : AuthorizationMaps)
    {hs : List PublicHostname} (hhs : hs.Nodup)
    (hn : ∀ h ∈ hs, h ∉ maps.publicHostnameToTunnel)
    (hse : ∀ h ∈ hs, h.asStr ≠ serverHostname.asStr) :
    ∃ hosts, addPublicHostnames serverHostname index hs maps =
        .ok { maps with publicHostnameToTunnel := hosts } ∧
      Adds hs index maps.publicHostnameToTunnel hosts := by
  induction hs generalizing maps with
  | nil => exact ⟨_, rfl, fun k i => by simp⟩
  | cons h hs ih =>
    obtain ⟨hh, hhs⟩ := List.nodup_cons.mp hhs
    have hf : h ∉ maps.publicHostnameToTunnel := hn h (by simp)
    obtain ⟨hosts, heq, ha⟩ := ih ⟨maps.clientIdentityToTunnel,
      maps.publicHostnameToTunnel.insert h index⟩ hhs (notMem_insert hh hn)
      fun d hd => hse d (by simp [hd])
    refine ⟨hosts, ?_, ha.insert hf⟩
    rw [addPublicHostnames, if_neg (hse h (by simp)), if_neg hf, heq]

theorem addPublicHostnames_server {hs : List PublicHostname}
    (h : addPublicHostnames serverHostname index hs maps = .ok maps') :
    ∀ hostname ∈ hs, hostname.asStr ≠ serverHostname.asStr := by
  induction hs generalizing maps with
  | nil => simp
  | cons first hs ih =>
    rw [addPublicHostnames] at h
    split at h
    · cases h
    · next hne =>
      split at h
      · cases h
      · exact List.forall_mem_cons.mpr ⟨hne, ih h⟩

/-- Every Tunnel's names, each at the index of the Tunnel. -/
def Indexed {κ : Type} (names : ServerTunnelConfig → List κ) (tunnels : List ServerTunnelConfig)
    (k : κ) (i : Nat) : Prop :=
  ∃ tunnel, tunnels[i]? = some tunnel ∧ k ∈ names tunnel

/-- A map with the names of some Tunnels added, from an index on. -/
def AddsTunnels {κ : Type} [DecidableEq κ] (names : ServerTunnelConfig → List κ)
    (tunnels : List ServerTunnelConfig) (index : Nat) (m m' : HashMap κ Nat) : Prop :=
  ∀ k i, m'.lookup k = some i ↔
    m.lookup k = some i ∨ ∃ j, i = index + j ∧ Indexed names tunnels k j

theorem AddsTunnels.cons [DecidableEq κ] {names : ServerTunnelConfig → List κ}
    {tunnel : ServerTunnelConfig} {m₁ : HashMap κ Nat} (h₁ : Adds (names tunnel) index m m₁)
    (h : AddsTunnels names tunnels (index + 1) m₁ m') :
    AddsTunnels names (tunnel :: tunnels) index m m' := by
  intro k i
  rw [h k i, h₁ k i, or_assoc]
  refine or_congr_right ?_
  constructor
  · rintro (⟨hk, rfl⟩ | ⟨j, rfl, t, ht, hk⟩)
    · exact ⟨0, rfl, tunnel, rfl, hk⟩
    · exact ⟨j + 1, by omega, t, ht, hk⟩
  · rintro ⟨j, rfl, t, ht, hk⟩
    cases j with
    | zero =>
      cases ht
      exact .inl ⟨hk, rfl⟩
    | succ j => exact .inr ⟨j, by omega, t, ht, hk⟩

/-- Names that are distinct over all Tunnels and new to a map. -/
structure Fresh {κ : Type} [DecidableEq κ] (names : ServerTunnelConfig → List κ)
    (tunnels : List ServerTunnelConfig) (m : HashMap κ Nat) : Prop where
  nodup : (tunnels.flatMap names).Nodup
  new : ∀ k ∈ tunnels.flatMap names, k ∉ m

theorem Fresh.cons [DecidableEq κ] {names : ServerTunnelConfig → List κ}
    {tunnel : ServerTunnelConfig} (h : Fresh names (tunnel :: tunnels) m) (index : Nat) :
    (names tunnel).Nodup ∧ (∀ k ∈ names tunnel, k ∉ m) ∧
      ∀ {m₁ : HashMap κ Nat}, Adds (names tunnel) index m m₁ → Fresh names tunnels m₁ := by
  obtain ⟨hn, hne⟩ := h
  rw [List.flatMap_cons, List.nodup_append] at hn
  obtain ⟨hf, hr, hd⟩ := hn
  simp only [List.flatMap_cons, List.mem_append] at hne
  refine ⟨hf, fun k hk => hne k (.inl hk), fun ha => ⟨hr, fun k hk => ?_⟩⟩
  refine ha.notMem (hne k (.inr hk)) fun hm => ?_
  exact hd k hm k hk rfl

theorem addTunnels_ok (index : Nat) (maps : AuthorizationMaps)
    (hcl : Fresh ServerTunnelConfig.authorizedClientIdentities tunnels
      maps.clientIdentityToTunnel)
    (hho : Fresh ServerTunnelConfig.publicHostnames tunnels maps.publicHostnameToTunnel)
    (hn : ∀ tunnel ∈ tunnels, tunnel.publicHostnames ≠ [])
    (hs : ∀ tunnel ∈ tunnels, ∀ h ∈ tunnel.publicHostnames, h.asStr ≠ serverHostname.asStr) :
    ∃ maps', addTunnels serverHostname index tunnels maps = .ok maps' ∧
      AddsTunnels ServerTunnelConfig.authorizedClientIdentities tunnels index
        maps.clientIdentityToTunnel maps'.clientIdentityToTunnel ∧
      AddsTunnels ServerTunnelConfig.publicHostnames tunnels index
        maps.publicHostnameToTunnel maps'.publicHostnameToTunnel := by
  induction tunnels generalizing index maps with
  | nil => exact ⟨maps, rfl, fun k i => by simp [Indexed], fun k i => by simp [Indexed]⟩
  | cons tunnel tunnels ih =>
    obtain ⟨hcs, hcn, hcr⟩ := hcl.cons index
    obtain ⟨hhs, hhn, hhr⟩ := hho.cons index
    obtain ⟨clients, hc, hca⟩ := addClientIdentities_ok index maps hcs hcn
    obtain ⟨hosts, hh, hha⟩ := addPublicHostnames_ok index
      ⟨clients, maps.publicHostnameToTunnel⟩ hhs hhn (hs tunnel (by simp))
    obtain ⟨maps', hr, hcm, hhm⟩ := ih (index + 1) ⟨clients, hosts⟩
      (hcr hca) (hhr hha)
      (fun t ht => hn t (by simp [ht])) (fun t ht => hs t (by simp [ht]))
    refine ⟨maps', ?_, .cons hca hcm, .cons hha hhm⟩
    rw [addTunnels, if_neg (hn tunnel (by simp)), hc]
    change (addPublicHostnames _ _ _ _ >>= _) = _
    rw [hh]
    exact hr

theorem addTunnels_server (h : addTunnels serverHostname index tunnels maps = .ok maps') :
    ∀ tunnel ∈ tunnels, ∀ hostname ∈ tunnel.publicHostnames,
      hostname.asStr ≠ serverHostname.asStr := by
  induction tunnels generalizing index maps with
  | nil => simp
  | cons tunnel tunnels ih =>
    rw [addTunnels] at h
    split at h
    · cases h
    · obtain ⟨maps₁, -, h⟩ := bind_eq_ok.mp h
      obtain ⟨maps₂, hh, h⟩ := bind_eq_ok.mp h
      exact List.forall_mem_cons.mpr ⟨addPublicHostnames_server hh, ih h⟩

theorem collectTunnelIds_ok (seen : List TunnelId)
    (hi : tunnels.map ServerTunnelConfig.id = ids.map some) (hn : (seen ++ ids).Nodup) :
    collectTunnelIds seen tunnels = .ok (seen ++ ids) := by
  induction tunnels generalizing seen ids with
  | nil =>
    obtain rfl := List.map_eq_nil_iff.mp hi.symm
    simp [collectTunnelIds]
  | cons tunnel tunnels ih =>
    cases ids with
    | nil => cases hi
    | cons id ids =>
      obtain ⟨hid, hi⟩ := List.cons.inj hi
      have hne : id ∉ seen := by
        intro hm
        exact (List.nodup_append.mp hn).2.2 id hm id (by simp) rfl
      rw [collectTunnelIds, hid]
      dsimp only
      rw [if_neg hne, ih (seen ++ [id]) hi (by simpa using hn)]
      simp

/-! ## Snapshots -/

/-- A snapshot of some Tunnels: every name at the index of its Tunnel, and the listed
identities trusted, and nothing else. -/
structure AuthorizationSnapshot.Describes (snapshot : AuthorizationSnapshot)
    (tunnels : List ServerTunnelConfig) : Prop where
  host : ∀ h i, snapshot.tunnelIndexForPublicHostname h = some i ↔
    ∃ tunnel, tunnels[i]? = some tunnel ∧ h ∈ tunnel.publicHostnames
  client : ∀ c i, snapshot.tunnelIndexForClientIdentity c = some i ↔
    ∃ tunnel, tunnels[i]? = some tunnel ∧ c ∈ tunnel.authorizedClientIdentities
  trusted : ∀ c, snapshot.authorizesClientIdentity c = true ↔
    ∃ tunnel ∈ tunnels, c ∈ tunnel.authorizedClientIdentities
  ids : ∃ ids, snapshot.continuity = .managed ids ∧
    tunnels.map ServerTunnelConfig.id = ids.map some
  count : snapshot.tunnelCount = tunnels.length

/-- Tunnels with an ID and a hostname each, and with distinct IDs, hostnames and identities. -/
structure Distinct (tunnels : List ServerTunnelConfig) : Prop where
  ids : ∃ ids : List TunnelId, tunnels.map ServerTunnelConfig.id = ids.map some ∧ ids.Nodup
  nonEmpty : ∀ tunnel ∈ tunnels, tunnel.publicHostnames ≠ []
  hostnames : (tunnels.flatMap ServerTunnelConfig.publicHostnames).Nodup
  identities : (tunnels.flatMap ServerTunnelConfig.authorizedClientIdentities).Nodup

theorem prepareManagedReplacement_ok {current : AuthorizationSnapshot}
    (hcu : current.continuity = .managed ids) (h : Distinct tunnels)
    (hs : ∀ tunnel ∈ tunnels, ∀ hostname ∈ tunnel.publicHostnames,
      hostname.asStr ≠ serverHostname.asStr) :
    ∃ snapshot, current.prepareManagedReplacement serverHostname tunnels = .ok snapshot ∧
      snapshot.Describes tunnels := by
  obtain ⟨tunnelIds, ht, hn⟩ := h.ids
  have hco := collectTunnelIds_ok [] ht (by simpa using hn)
  obtain ⟨maps, hm, hci, hh⟩ := addTunnels_ok 0 {}
    ⟨h.identities, fun c _ => AList.notMem_empty c⟩
    ⟨h.hostnames, fun hostname _ => AList.notMem_empty hostname⟩ h.nonEmpty hs
  refine ⟨maps.snapshot (.managed tunnelIds) tunnels.length, ?_, ?_⟩
  · rw [AuthorizationSnapshot.prepareManagedReplacement, hcu]
    rw [AuthorizationSnapshot.tryFromManagedTunnels, hco]
    change (addTunnels _ _ _ _ >>= _) = _
    rw [hm]
    rfl
  · have hcl : ∀ c i, maps.clientIdentityToTunnel.lookup c = some i ↔
        Indexed ServerTunnelConfig.authorizedClientIdentities tunnels c i := by
      intro c i
      rw [hci c i]
      simp
    have hho : ∀ h i, maps.publicHostnameToTunnel.lookup h = some i ↔
        Indexed ServerTunnelConfig.publicHostnames tunnels h i := by
      intro h i
      rw [hh h i]
      simp
    refine ⟨hho, hcl, fun c => ?_, ⟨tunnelIds, rfl, ht⟩, rfl⟩
    have hk : c ∈ maps.clientIdentityToTunnel ↔ ∃ i,
        Indexed ServerTunnelConfig.authorizedClientIdentities tunnels c i := by
      rw [← AList.lookup_isSome, Option.isSome_iff_exists]
      exact exists_congr (hcl c)
    rw [AuthorizationSnapshot.authorizesClientIdentity, decide_eq_true_iff]
    change c ∈ maps.clientIdentityToTunnel.keys ↔ _
    rw [← AList.mem_keys, hk]
    constructor
    · rintro ⟨i, tunnel, htu, hc⟩
      exact ⟨tunnel, List.mem_of_getElem? htu, hc⟩
    · rintro ⟨tunnel, htu, hc⟩
      obtain ⟨i, hi⟩ := List.getElem?_of_mem htu
      exact ⟨i, tunnel, hi, hc⟩

/-- The Server's own hostname is the one reason to fail. -/
theorem prepareManagedReplacement_error_iff {current : AuthorizationSnapshot}
    (hc : current.continuity = .managed ids) (h : Distinct tunnels) :
    (∃ e, current.prepareManagedReplacement serverHostname tunnels = .error e) ↔
      ∃ tunnel ∈ tunnels, ∃ hostname ∈ tunnel.publicHostnames,
        hostname.asStr = serverHostname.asStr := by
  constructor
  · rintro ⟨e, he⟩
    by_contra hn
    have hs : ∀ tunnel ∈ tunnels, ∀ hostname ∈ tunnel.publicHostnames,
        hostname.asStr ≠ serverHostname.asStr := fun tunnel ht hostname hh heq =>
      hn ⟨tunnel, ht, hostname, hh, heq⟩
    obtain ⟨snapshot, hok, -⟩ := prepareManagedReplacement_ok hc h hs
    rw [hok] at he
    cases he
  · rintro ⟨tunnel, ht, hostname, hh, heq⟩
    cases hp : current.prepareManagedReplacement serverHostname tunnels with
    | error e => exact ⟨e, rfl⟩
    | ok snapshot =>
      rw [AuthorizationSnapshot.prepareManagedReplacement, hc] at hp
      obtain ⟨_, -, hp⟩ := bind_eq_ok.mp hp
      obtain ⟨_, hm, -⟩ := bind_eq_ok.mp hp
      exact absurd heq (addTunnels_server hm tunnel ht hostname hh)

end Runewarp.Server
