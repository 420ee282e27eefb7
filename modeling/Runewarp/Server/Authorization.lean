import Runewarp.Basic

/-!
# Server authorization

Public-hostname routing and Client-identity admission read one immutable
*Authorization snapshot*.  A snapshot maps Client identities and Public
hostnames to the index of their Tunnel.  A managed snapshot also lists the
Tunnel IDs, which key the live pools across replacements.

`buildAuthorizationMaps` is the validation both constructors share.  Its `seen`
sets hold the keys inserted so far and nothing else, so the model asks the maps.

A snapshot built for managed mode is well formed: Tunnel IDs are distinct and
as many as the Tunnels, every index is below their number, and the trusted
identities are those with an index.  `ManagedSnapshot` carries these facts.
-/

namespace Runewarp.Server

structure ServerTunnelConfig where
  /-- Control-owned continuity key in Managed mode. -/
  id : Option TunnelId
  publicHostnames : List PublicHostname
  authorizedClientIdentities : List ClientIdentity
deriving DecidableEq

/-- How Tunnel pools continue under an Authorization snapshot. -/
inductive AuthorizationContinuity where
  | static
  | managed (ids : List TunnelId)
deriving DecidableEq

/-- `AuthorizationSnapshot`: the facts consulted by routing and admission. -/
structure AuthorizationSnapshot where
  clientIdentityToTunnel : HashMap ClientIdentity Nat
  publicHostnameToTunnel : HashMap PublicHostname Nat
  trustedClientIdentities : List ClientIdentity
  continuity : AuthorizationContinuity
  tunnelCount : Nat

namespace AuthorizationSnapshot

def tunnelIndexForPublicHostname (s : AuthorizationSnapshot) (h : PublicHostname) : Option Nat :=
  s.publicHostnameToTunnel.lookup h

def tunnelIndexForClientIdentity (s : AuthorizationSnapshot) (c : ClientIdentity) : Option Nat :=
  s.clientIdentityToTunnel.lookup c

def authorizesClientIdentity (s : AuthorizationSnapshot) (c : ClientIdentity) : Bool :=
  decide (c ∈ s.trustedClientIdentities)

end AuthorizationSnapshot

/-! ## Validation of the configured Tunnels -/

/-- `AuthorizationMaps`, less the trusted set, which is its identity keys. -/
structure AuthorizationMaps where
  clientIdentityToTunnel : HashMap ClientIdentity Nat := ∅
  publicHostnameToTunnel : HashMap PublicHostname Nat := ∅

/-- The identity loop of `build_authorization_maps` for the Tunnel at `index`. -/
def addClientIdentities (index : Nat) :
    List ClientIdentity → AuthorizationMaps → Except IoError AuthorizationMaps
  | [], maps => .ok maps
  | c :: rest, maps =>
    if c ∈ maps.clientIdentityToTunnel then
      .error (.invalidInput
        ("authorized Client identities must be unique across all Server Tunnels: "
          ++ c.display))
    else
      addClientIdentities index rest
        { maps with clientIdentityToTunnel := maps.clientIdentityToTunnel.insert c index }

/-- The hostname loop of `build_authorization_maps` for the Tunnel at `index`. -/
def addPublicHostnames (serverHostname : ServerHostname) (index : Nat) :
    List PublicHostname → AuthorizationMaps → Except IoError AuthorizationMaps
  | [], maps => .ok maps
  | h :: rest, maps =>
    if h.asStr = serverHostname.asStr then
      .error (.invalidInput
        ("server.tunnels[].public-hostnames must not include server.hostname `"
          ++ serverHostname.asStr ++ "`"))
    else if h ∈ maps.publicHostnameToTunnel then
      .error (.invalidInput
        ("server.tunnels[].public-hostnames must be unique after normalization: " ++ h.asStr))
    else
      addPublicHostnames serverHostname index rest
        { maps with publicHostnameToTunnel := maps.publicHostnameToTunnel.insert h index }

/-- The Tunnel loop of `build_authorization_maps`, from the Tunnel at `index` on. -/
def addTunnels (serverHostname : ServerHostname) :
    Nat → List ServerTunnelConfig → AuthorizationMaps → Except IoError AuthorizationMaps
  | _, [], maps => .ok maps
  | index, tunnel :: rest, maps =>
    if tunnel.publicHostnames = [] then
      .error (.invalidInput "server.tunnels[].public-hostnames must not be empty")
    else do
      let maps ← addClientIdentities index tunnel.authorizedClientIdentities maps
      let maps ← addPublicHostnames serverHostname index tunnel.publicHostnames maps
      addTunnels serverHostname (index + 1) rest maps

def buildAuthorizationMaps (serverHostname : ServerHostname) (tunnels : List ServerTunnelConfig) :
    Except IoError AuthorizationMaps :=
  addTunnels serverHostname 0 tunnels {}

/-- The snapshot of validated maps. -/
def AuthorizationMaps.snapshot (maps : AuthorizationMaps) (continuity : AuthorizationContinuity)
    (tunnelCount : Nat) : AuthorizationSnapshot where
  clientIdentityToTunnel := maps.clientIdentityToTunnel
  publicHostnameToTunnel := maps.publicHostnameToTunnel
  trustedClientIdentities := maps.clientIdentityToTunnel.keys
  continuity := continuity
  tunnelCount := tunnelCount

/-- The Tunnel ID loop of `try_from_managed_tunnels`; `seen` is what it has pushed. -/
def collectTunnelIds : List TunnelId → List ServerTunnelConfig → Except IoError (List TunnelId)
  | seen, [] => .ok seen
  | seen, tunnel :: rest =>
    match tunnel.id with
    | none =>
      .error (.invalidInput
        "managed Server authorization requires a Tunnel ID on every tunnel")
    | some id =>
      if id ∈ seen then
        .error (.invalidInput
          ("Tunnel IDs must be unique across all Server Tunnels: " ++ id.asStr))
      else collectTunnelIds (seen ++ [id]) rest

namespace AuthorizationSnapshot

/-- `AuthorizationSnapshot::try_from_managed_tunnels`. -/
def tryFromManagedTunnels (serverHostname : ServerHostname) (tunnels : List ServerTunnelConfig) :
    Except IoError AuthorizationSnapshot := do
  let ids ← collectTunnelIds [] tunnels
  let maps ← buildAuthorizationMaps serverHostname tunnels
  .ok (maps.snapshot (.managed ids) tunnels.length)

/-- `ServerAuthorization::prepare_managed_replacement`, beside the live snapshot. -/
def prepareManagedReplacement (current : AuthorizationSnapshot) (serverHostname : ServerHostname)
    (tunnels : List ServerTunnelConfig) : Except IoError AuthorizationSnapshot :=
  match current.continuity with
  | .static =>
    .error (.invalidInput "static Server authorization does not support live replacement")
  | .managed _ => tryFromManagedTunnels serverHostname tunnels

/-- `AuthorizationSnapshot::empty_managed`. -/
def emptyManaged : AuthorizationSnapshot :=
  ({} : AuthorizationMaps).snapshot (.managed []) 0

end AuthorizationSnapshot

/-! ## What validation guarantees -/

/-- Every index of the maps is below `n`. -/
structure AuthorizationMaps.Below (maps : AuthorizationMaps) (n : Nat) : Prop where
  client : ∀ c i, maps.clientIdentityToTunnel.lookup c = some i → i < n
  host : ∀ h i, maps.publicHostnameToTunnel.lookup h = some i → i < n

theorem AuthorizationMaps.below_empty (n : Nat) : ({} : AuthorizationMaps).Below n :=
  ⟨fun _ _ h => (by cases h), fun _ _ h => (by cases h)⟩

variable {n : Nat} {serverHostname : ServerHostname}

theorem AuthorizationMaps.Below.mono {maps : AuthorizationMaps} {m : Nat} (h : maps.Below n)
    (hnm : n ≤ m) : maps.Below m :=
  ⟨fun c i hi => lt_of_lt_of_le (h.client c i hi) hnm,
    fun c i hi => lt_of_lt_of_le (h.host c i hi) hnm⟩

theorem addClientIdentities_below {index : Nat} (hin : index < n) :
    ∀ {cs : List ClientIdentity} {maps maps' : AuthorizationMaps}, maps.Below n →
      addClientIdentities index cs maps = .ok maps' → maps'.Below n
  | [], maps, maps', hb, h => by
      simp only [addClientIdentities, Except.ok.injEq] at h
      exact h ▸ hb
  | c :: cs, maps, maps', hb, h => by
      simp only [addClientIdentities] at h
      split at h
      · cases h
      · have hb' : AuthorizationMaps.Below
            { maps with
              clientIdentityToTunnel := maps.clientIdentityToTunnel.insert c index } n := by
          refine ⟨fun d i hi => ?_, hb.host⟩
          by_cases hd : d = c
          · subst hd
            rw [AList.lookup_insert] at hi
            exact Option.some.inj hi ▸ hin
          · exact hb.client d i (AList.lookup_insert_ne hd ▸ hi)
        exact addClientIdentities_below hin hb' h

theorem addPublicHostnames_below {index : Nat} (hin : index < n) :
    ∀ {hs : List PublicHostname} {maps maps' : AuthorizationMaps}, maps.Below n →
      addPublicHostnames serverHostname index hs maps = .ok maps' → maps'.Below n
  | [], maps, maps', hb, h => by
      simp only [addPublicHostnames, Except.ok.injEq] at h
      exact h ▸ hb
  | host :: hs, maps, maps', hb, h => by
      simp only [addPublicHostnames] at h
      split at h
      · cases h
      · split at h
        · cases h
        · have hb' : AuthorizationMaps.Below
              { maps with
                publicHostnameToTunnel := maps.publicHostnameToTunnel.insert host index } n := by
            refine ⟨hb.client, fun d i hi => ?_⟩
            by_cases hd : d = host
            · subst hd
              rw [AList.lookup_insert] at hi
              exact Option.some.inj hi ▸ hin
            · exact hb.host d i (AList.lookup_insert_ne hd ▸ hi)
          exact addPublicHostnames_below hin hb' h

theorem addTunnels_below :
    ∀ {tunnels : List ServerTunnelConfig} {index : Nat} {maps maps' : AuthorizationMaps},
      maps.Below index → addTunnels serverHostname index tunnels maps = .ok maps' →
      maps'.Below (index + tunnels.length)
  | [], index, maps, maps', hb, h => by
      simp only [addTunnels, Except.ok.injEq] at h
      exact h ▸ hb
  | tunnel :: tunnels, index, maps, maps', hb, h => by
      simp only [addTunnels] at h
      split at h
      · cases h
      · simp only [bind, Except.bind] at h
        split at h
        · cases h
        · next maps₁ h₁ =>
          split at h
          · cases h
          · next maps₂ h₂ =>
            have hb₁ := addClientIdentities_below (Nat.lt_succ_self index)
              (hb.mono (Nat.le_succ index)) h₁
            have hb₂ := addPublicHostnames_below (Nat.lt_succ_self index) hb₁ h₂
            have := addTunnels_below hb₂ h
            rw [List.length_cons, Nat.add_comm tunnels.length 1, ← Nat.add_assoc]
            exact this

theorem collectTunnelIds_spec :
    ∀ {tunnels : List ServerTunnelConfig} {seen ids : List TunnelId}, seen.Nodup →
      collectTunnelIds seen tunnels = .ok ids →
      ids.Nodup ∧ ids.length = seen.length + tunnels.length
  | [], seen, ids, hn, h => by
      cases h
      exact ⟨hn, rfl⟩
  | tunnel :: tunnels, seen, ids, hn, h => by
      simp only [collectTunnelIds] at h
      split at h
      · cases h
      · next id _ =>
        split at h
        · cases h
        · next hne =>
          have hn' : (seen ++ [id]).Nodup := by
            rw [List.nodup_append]
            refine ⟨hn, List.nodup_singleton id, ?_⟩
            intro a ha b hb
            rw [List.mem_singleton] at hb
            subst hb
            exact fun he => hne (he ▸ ha)
          obtain ⟨hi, hl⟩ := collectTunnelIds_spec hn' h
          refine ⟨hi, ?_⟩
          simp only [List.length_append, List.length_singleton] at hl
          simp only [List.length_cons]
          omega

/-- Well-formedness of a snapshot built for managed mode. -/
structure AuthorizationSnapshot.Managed (s : AuthorizationSnapshot) : Prop where
  continuity : ∃ ids, s.continuity = .managed ids ∧ ids.Nodup ∧ ids.length = s.tunnelCount
  client_lt : ∀ c i, s.tunnelIndexForClientIdentity c = some i → i < s.tunnelCount
  host_lt : ∀ h i, s.tunnelIndexForPublicHostname h = some i → i < s.tunnelCount
  trusted_iff : ∀ c, c ∈ s.trustedClientIdentities ↔
    (s.tunnelIndexForClientIdentity c).isSome = true

theorem AuthorizationMaps.snapshot_managed {maps : AuthorizationMaps} {ids : List TunnelId}
    (hb : maps.Below n) (hn : ids.Nodup) (hl : ids.length = n) :
    (maps.snapshot (.managed ids) n).Managed where
  continuity := ⟨ids, rfl, hn, hl⟩
  client_lt := hb.client
  host_lt := hb.host
  trusted_iff c := by
    rw [AuthorizationSnapshot.tunnelIndexForClientIdentity, AuthorizationMaps.snapshot,
      AList.lookup_isSome, AList.mem_keys]

theorem AuthorizationSnapshot.emptyManaged_managed : emptyManaged.Managed :=
  AuthorizationMaps.snapshot_managed (AuthorizationMaps.below_empty 0) List.nodup_nil rfl

theorem AuthorizationSnapshot.tryFromManagedTunnels_managed {tunnels : List ServerTunnelConfig}
    {s : AuthorizationSnapshot} (h : tryFromManagedTunnels serverHostname tunnels = .ok s) :
    s.Managed := by
  simp only [tryFromManagedTunnels, bind, Except.bind] at h
  split at h
  · cases h
  · next ids hi =>
    split at h
    · cases h
    · next maps hm =>
      cases h
      obtain ⟨hn, hl⟩ := collectTunnelIds_spec List.nodup_nil hi
      have hb := addTunnels_below (AuthorizationMaps.below_empty 0) hm
      rw [List.length_nil, Nat.zero_add] at hl
      rw [Nat.zero_add] at hb
      exact AuthorizationMaps.snapshot_managed hb hn hl

/-! ## Managed snapshots -/

/-- A well-formed managed snapshot. -/
abbrev ManagedSnapshot : Type := { s : AuthorizationSnapshot // s.Managed }

namespace ManagedSnapshot

/-- The Tunnel IDs of a managed snapshot, in Tunnel order. -/
def tunnelIds (s : ManagedSnapshot) : List TunnelId :=
  match s.val.continuity with
  | .managed ids => ids
  | .static => []

theorem tunnelIds_nodup (s : ManagedSnapshot) : s.tunnelIds.Nodup := by
  obtain ⟨ids, hc, hn, -⟩ := s.property.continuity
  rw [tunnelIds, hc]
  exact hn

theorem length_tunnelIds (s : ManagedSnapshot) : s.tunnelIds.length = s.val.tunnelCount := by
  obtain ⟨ids, hc, -, hl⟩ := s.property.continuity
  rw [tunnelIds, hc]
  exact hl

/-- `tunnel_index_for_client_identity`. -/
def index (s : ManagedSnapshot) (c : ClientIdentity) : Option Nat :=
  s.val.tunnelIndexForClientIdentity c

/-- `tunnel_index_for_public_hostname`. -/
def hostIndex (s : ManagedSnapshot) (h : PublicHostname) : Option Nat :=
  s.val.tunnelIndexForPublicHostname h

/-- `trusted_client_identities`. -/
def trusted (s : ManagedSnapshot) : List ClientIdentity := s.val.trustedClientIdentities

variable {c : ClientIdentity}

theorem mem_trusted {s : ManagedSnapshot} : c ∈ s.trusted ↔ ∃ i, s.index c = some i := by
  rw [trusted, s.property.trusted_iff, Option.isSome_iff_exists]
  rfl

theorem index_lt {s : ManagedSnapshot} {i : Nat} (h : s.index c = some i) :
    i < s.tunnelIds.length := by
  rw [s.length_tunnelIds]
  exact s.property.client_lt c i h

/-- The snapshot of an accepted managed configuration. -/
def ofTunnels (serverHostname : ServerHostname) (tunnels : List ServerTunnelConfig) :
    Except IoError ManagedSnapshot :=
  match h : AuthorizationSnapshot.tryFromManagedTunnels serverHostname tunnels with
  | .ok s => .ok ⟨s, AuthorizationSnapshot.tryFromManagedTunnels_managed h⟩
  | .error e => .error e

/-- The snapshot a Managed Server starts with. -/
def empty : ManagedSnapshot :=
  ⟨.emptyManaged, AuthorizationSnapshot.emptyManaged_managed⟩

/-- With a managed snapshot live, a replacement is prepared from a managed input. -/
theorem prepareManagedReplacement_eq (s : ManagedSnapshot) (serverHostname : ServerHostname)
    (tunnels : List ServerTunnelConfig) :
    s.val.prepareManagedReplacement serverHostname tunnels =
      (ofTunnels serverHostname tunnels).map Subtype.val := by
  obtain ⟨ids, hi, -⟩ := s.property.continuity
  rw [AuthorizationSnapshot.prepareManagedReplacement, hi]
  show AuthorizationSnapshot.tryFromManagedTunnels serverHostname tunnels = _
  unfold ofTunnels
  split
  · next h => exact h
  · next h => exact h

/-- `previous.difference(next)` on the trusted identities. -/
def removedIdentities (previous next : ManagedSnapshot) : List ClientIdentity :=
  previous.trusted.filter fun c => decide (c ∉ next.trusted)

theorem mem_removedIdentities {previous next : ManagedSnapshot} :
    c ∈ removedIdentities previous next ↔ c ∈ previous.trusted ∧ c ∉ next.trusted := by
  simp [removedIdentities]

end ManagedSnapshot

/-! ## Sample configurations -/

/-- A Client identity that repeats one byte. -/
def sampleIdentity (b : UInt8) : ClientIdentity := ⟨List.replicate 32 b, List.length_replicate⟩

/-- A Tunnel named `id` with one Public hostname of that name. -/
def sampleTunnel (id : String) (clients : List ClientIdentity) : ServerTunnelConfig :=
  ⟨some ⟨id⟩, [⟨id ++ ".example.test"⟩], clients⟩

end Runewarp.Server
