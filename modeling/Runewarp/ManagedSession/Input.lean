import Runewarp.Lib.Checks
import Runewarp.Lib.Json
import Runewarp.Names
import Runewarp.Tunnel.Generation
import Mathlib.Algebra.Order.BigOperators.Group.List

/-!
# The role input of a snapshot

`parse_server_input` and `parse_client_input` turn the JSON input of a snapshot into the
input of the role.  The errors are of two kinds: a limit that is exceeded, which ends the
session, and everything else, which rejects the snapshot and keeps the session.

The checks stop at the first that fails, entry by entry.  So an entry over a limit is found
only if nothing before it is wrong in another way, and a Tunnel ID over its length is one of
the other ways.
-/

namespace Runewarp.ManagedSession

open Server Client Checks

/-- `ManagedSessionLimits`, the cardinalities. -/
structure ManagedSessionLimits where
  maxTunnels : Nat := 4096
  maxPublicHostnamesTotal : Nat := 4096
  maxPublicHostnamesPerTunnel : Nat := 256
  maxClientIdentitiesTotal : Nat := 4096
  maxClientIdentitiesPerTunnel : Nat := 64
  maxServerAddresses : Nat := 256

structure RawServerTunnel where
  id : Option String
  publicHostnames : Option (List String)
  clientIdentities : Option (List String)

/-- The derived reader of `RawServerTunnel`. -/
def RawServerTunnel.read (value : Json) : Option RawServerTunnel :=
  match value.readFields ["id", "public_hostnames", "client_identities"] with
  | some [id, publicHostnames, clientIdentities] => do
      let id ← id.readOption Json.asStr
      let publicHostnames ← publicHostnames.readOption (Json.readList Json.asStr)
      let clientIdentities ← clientIdentities.readOption (Json.readList Json.asStr)
      some { id, publicHostnames, clientIdentities }
  | _ => none

/-- The derived reader of `RawServerInput`. -/
def readServerInput (value : Json) : Option (Option (List RawServerTunnel)) :=
  match value.readFields ["tunnels"] with
  | some [tunnels] => tunnels.readOption (Json.readList RawServerTunnel.read)
  | _ => none

/-- The derived reader of `RawClientInput`. -/
def readClientInput (value : Json) : Option (Option (List String)) :=
  match value.readFields ["server_addresses"] with
  | some [addresses] => addresses.readOption (Json.readList Json.asStr)
  | _ => none

/-! ## One entry -/

/-- A value that has to be there. -/
def required {α : Type} (value : Option α) (message : String) : Except InputError α :=
  match value with
  | some a => .ok a
  | none => .error (.invalidShape message)

/-- `map_err` to `InvalidShape`. -/
def shape {ε α : Type} (value : Except ε α) (message : ε → String) : Except InputError α :=
  match value with
  | .ok a => .ok a
  | .error error => .error (.invalidShape (message error))

def nonEmpty {α : Type} (values : List α) (message : String) : Except InputError Unit :=
  if values = [] then .error (.invalidShape message) else .ok ()

/-- `limit_exceeded` when it is. -/
def within (limit : LimitKind) (value max : Nat) : Except InputError Unit :=
  if value > max then .error (.limitExceeded limit value max) else .ok ()

/-- Where an entry stands in the messages. -/
def tunnelPath (index : Nat) : String := "tunnels[" ++ toString index ++ "]"

/-- `parse_server_tunnel` up to its limits: the ID and the raw lists. -/
def tunnelParts (index : Nat) (tunnel : RawServerTunnel) :
    Except InputError (TunnelId × List String × List String) := do
  let rawId ← required tunnel.id (tunnelPath index ++ " omitted id")
  let id ← shape (TunnelId.parse rawId) fun error =>
    tunnelPath index ++ ".id is invalid `" ++ rawId ++ "`: " ++ error.display
  let rawHostnames ← required tunnel.publicHostnames
    (tunnelPath index ++ " omitted public_hostnames")
  nonEmpty rawHostnames (tunnelPath index ++ ".public_hostnames must not be empty")
  let rawIdentities ← required tunnel.clientIdentities
    (tunnelPath index ++ " omitted client_identities")
  nonEmpty rawIdentities (tunnelPath index ++ ".client_identities must not be empty")
  return (id, rawHostnames, rawIdentities)

/-- The running totals of a Server input. -/
structure Totals where
  publicHostnames : Nat := 0
  clientIdentities : Nat := 0

/-- The limits in `parse_server_tunnel`, and the new totals.  What is counted is held in
memory, so that the additions do not saturate. -/
def tunnelLimits (limits : ManagedSessionLimits) (totals : Totals)
    (rawHostnames rawIdentities : List String) : Except InputError Totals := do
  within .publicHostnamesPerTunnel rawHostnames.length limits.maxPublicHostnamesPerTunnel
  within .clientIdentitiesPerTunnel rawIdentities.length limits.maxClientIdentitiesPerTunnel
  let publicHostnames := totals.publicHostnames + rawHostnames.length
  within .publicHostnamesTotal publicHostnames limits.maxPublicHostnamesTotal
  let clientIdentities := totals.clientIdentities + rawIdentities.length
  within .clientIdentitiesTotal clientIdentities limits.maxClientIdentitiesTotal
  return { publicHostnames, clientIdentities }

/-- The end of `parse_server_tunnel`: hostnames and identities one by one. -/
def tunnelValues (isIpAddr : String → Bool) (index : Nat)
    (rawHostnames rawIdentities : List String) :
    Except InputError (List PublicHostname × List ClientIdentity) := do
  let publicHostnames ← rawHostnames.mapM fun hostname =>
    shape (PublicHostname.tryFrom isIpAddr hostname) fun error =>
      tunnelPath index ++ ".public_hostnames contains invalid hostname `" ++ hostname ++ "`: "
        ++ error.display
  let clientIdentities ← rawIdentities.mapM fun identity =>
    shape (ClientIdentity.fromStr identity) fun error =>
      tunnelPath index ++ ".client_identities contains invalid identity `" ++ identity ++ "`: "
        ++ error.display
  return (publicHostnames, clientIdentities)

def parseServerTunnel (isIpAddr : String → Bool) (limits : ManagedSessionLimits) (index : Nat)
    (tunnel : RawServerTunnel) (totals : Totals) :
    Except InputError (ServerTunnelConfig × Totals) := do
  let (id, rawHostnames, rawIdentities) ← tunnelParts index tunnel
  let totals ← tunnelLimits limits totals rawHostnames rawIdentities
  let (publicHostnames, authorizedClientIdentities) ←
    tunnelValues isIpAddr index rawHostnames rawIdentities
  return ({ id := some id, publicHostnames, authorizedClientIdentities }, totals)

/-! ## The whole input -/

/-- The loop of `parse_server_input`, from the entry at `index` on. -/
def parseServerTunnels (isIpAddr : String → Bool) (limits : ManagedSessionLimits) :
    Nat → Totals → List RawServerTunnel → Except InputError (List ServerTunnelConfig)
  | _, _, [] => .ok []
  | index, totals, tunnel :: rest => do
      let (config, totals) ← parseServerTunnel isIpAddr limits index tunnel totals
      let configs ← parseServerTunnels isIpAddr limits (index + 1) totals rest
      return config :: configs

/-- `validate_unique_tunnel_ids`; `seen` is what the loop has inserted. -/
def validateUniqueTunnelIds : List TunnelId → List ServerTunnelConfig → Except InputError Unit
  | _, [] => .ok ()
  | seen, tunnel :: rest =>
    match tunnel.id with
    | none => .error (.invalidShape "managed tunnels must include an id")
    | some id =>
      if id ∈ seen then
        .error (.invalidShape
          ("tunnel ids must be unique across all tunnels: " ++ id.asStr))
      else validateUniqueTunnelIds (id :: seen) rest

def validateUniquePublicHostnames (tunnels : List ServerTunnelConfig) : Except InputError Unit :=
  distinct (fun hostname : PublicHostname => .invalidShape
      ("public_hostnames must be unique after normalization: " ++ hostname.asStr))
    [] (tunnels.flatMap ServerTunnelConfig.publicHostnames)

/-- `validate_unique_client_identities`, by their texts. -/
def validateUniqueClientIdentities (tunnels : List ServerTunnelConfig) :
    Except InputError Unit :=
  distinct (fun rendered : String => .invalidShape
      ("client_identities must be unique across all tunnels: " ++ rendered))
    [] ((tunnels.flatMap ServerTunnelConfig.authorizedClientIdentities).map
      ClientIdentity.display)

/-- `validate_unique_server_addresses`, by their texts. -/
def validateUniqueServerAddresses (addresses : List ServerAddress) : Except InputError Unit :=
  distinct (fun rendered : String => .invalidShape
      ("server_addresses contains duplicate Server address `" ++ rendered ++ "`"))
    [] (addresses.map ServerAddress.display)

/-- The message of a Server input that is none. -/
def notServerInput : String := "server input was not a JSON object with tunnel entries"

/-- The message of a Client input that is none. -/
def notClientInput : String := "client input was not a JSON object with server_addresses"

/-- The first match of both parsers: an array under a key, within a limit. -/
def checkArray (key : String) (missing : InputError) (limit : LimitKind) (max : Nat)
    (message : String) (input : Json) : Except InputError Unit :=
  match input.get key with
  | none => .error missing
  | some (.array items) => within limit items.length max
  | some _ => .error (.invalidShape message)

def readReplacementGeneration [Uuid.Library] (input : Json) :
    Except InputError (Option ServerRuntimeGeneration) :=
  match input.get "replacement_generation" with
  | none => .ok none
  | some value =>
    (required (value.asStr.bind ServerRuntimeGeneration.parse)
      ("server input replacement_generation was not a canonical lowercase UUIDv7")).map some

def readDrain (input : Json) : Except InputError Bool :=
  match input.get "drain" with
  | none => .ok false
  | some (.bool drain) => .ok drain
  | some _ => .error (.invalidShape "server input drain was not a boolean")

def parseServerInput [Uuid.Library] (isIpAddr : String → Bool) (limits : ManagedSessionLimits)
    (input : Json) : Except InputError ServerManagedInput := do
  checkArray "tunnels" .missingTunnels .tunnels limits.maxTunnels notServerInput input
  let replacementGeneration ← readReplacementGeneration input
  let drain ← readDrain input
  let raw ← required (readServerInput input) notServerInput
  match raw with
  | none => throw .missingTunnels
  | some rawTunnels =>
    let tunnels ← parseServerTunnels isIpAddr limits 0 {} rawTunnels
    validateUniqueTunnelIds [] tunnels
    validateUniquePublicHostnames tunnels
    validateUniqueClientIdentities tunnels
    return { tunnels, replacementGeneration, drain }

/-- One entry of `server_addresses`. -/
def parseServerAddress (isIpAddr : String → Bool) (index : Nat) (address : String) :
    Except InputError ServerAddress :=
  shape (ServerAddress.parse isIpAddr address) fun error =>
    "server_addresses[" ++ toString index ++ "] is invalid `" ++ address ++ "`: " ++ error.display

/-- `parse_client_input`, to the addresses of the `ClientManagedInput`. -/
def parseClientInput (isIpAddr : String → Bool) (limits : ManagedSessionLimits) (input : Json) :
    Except InputError (List ServerAddress) := do
  checkArray "server_addresses" .missingServerAddresses .serverAddresses
    limits.maxServerAddresses notClientInput input
  let raw ← required (readClientInput input) notClientInput
  match raw with
  | none => throw .missingServerAddresses
  | some rawAddresses =>
    let serverAddresses ← rawAddresses.zipIdx.mapM fun (address, index) =>
      parseServerAddress isIpAddr index address
    validateUniqueServerAddresses serverAddresses
    return serverAddresses

/-! ## What one entry comes to -/

/-- The error that ends the session. -/
def LimitExceeded (e : InputError) : Prop :=
  ∃ limit value max, max < value ∧ e = .limitExceeded limit value max

theorem required_eq_ok {α : Type} {value : Option α} {message : String} {a : α} :
    required value message = .ok a ↔ value = some a := by
  cases value <;> simp [required]

theorem shape_eq_ok {ε α : Type} {value : Except ε α} {message : ε → String} {a : α} :
    shape value message = .ok a ↔ value = .ok a := by
  cases value <;> simp [shape]

theorem nonEmpty_eq_ok {α : Type} {values : List α} {message : String} {u : Unit} :
    nonEmpty values message = .ok u ↔ values ≠ [] := by
  unfold nonEmpty
  split <;> simp_all

theorem within_eq_ok {limit : LimitKind} {value max : Nat} {u : Unit} :
    within limit value max = .ok u ↔ value ≤ max := by
  unfold within
  split
  · next h => simp [Nat.not_le.mpr h]
  · next h => simp [Nat.not_lt.mp h]

theorem errs_within (limit : LimitKind) (value max : Nat) :
    Errs LimitExceeded (within limit value max) := by
  unfold within
  split
  · next h =>
    intro e he
    cases he
    exact ⟨limit, value, max, h, rfl⟩
  · intro e he
    cases he

/-- What an entry has to have before its limits are looked at. -/
structure Parts (tunnel : RawServerTunnel) (id : TunnelId)
    (rawHostnames rawIdentities : List String) : Prop where
  id : ∃ rawId, tunnel.id = some rawId ∧ TunnelId.parse rawId = .ok id
  hostnames : tunnel.publicHostnames = some rawHostnames ∧ rawHostnames ≠ []
  identities : tunnel.clientIdentities = some rawIdentities ∧ rawIdentities ≠ []

variable {isIpAddr : String → Bool} {limits : ManagedSessionLimits} {index : Nat}
  {tunnel : RawServerTunnel} {totals : Totals} {id : TunnelId}
  {rawHostnames rawIdentities : List String}

theorem tunnelParts_eq_ok : tunnelParts index tunnel = .ok (id, rawHostnames, rawIdentities) ↔
    Parts tunnel id rawHostnames rawIdentities := by
  unfold tunnelParts
  simp only [bind_eq_ok, required_eq_ok, shape_eq_ok, nonEmpty_eq_ok]
  constructor
  · rintro ⟨rawId, hid, id', hp, hs, hh, _, hhs, cs, hi, _, hcs, h⟩
    cases h
    exact ⟨⟨rawId, hid, hp⟩, ⟨hh, hhs⟩, ⟨hi, hcs⟩⟩
  · rintro ⟨⟨rawId, hid, hp⟩, ⟨hh, hhs⟩, ⟨hi, hcs⟩⟩
    exact ⟨rawId, hid, id, hp, _, hh, (), hhs, _, hi, (), hcs, rfl⟩

/-- How many hostnames an entry lists. -/
def RawServerTunnel.hostnames (tunnel : RawServerTunnel) : Nat :=
  (tunnel.publicHostnames.getD []).length

/-- How many identities an entry lists. -/
def RawServerTunnel.identities (tunnel : RawServerTunnel) : Nat :=
  (tunnel.clientIdentities.getD []).length

/-- The totals with one more entry. -/
def Totals.add (totals : Totals) (tunnel : RawServerTunnel) : Totals :=
  ⟨totals.publicHostnames + tunnel.hostnames, totals.clientIdentities + tunnel.identities⟩

/-- The limits of an entry after the totals of those before it. -/
structure Fits (limits : ManagedSessionLimits) (totals : Totals) (tunnel : RawServerTunnel) :
    Prop where
  hostnames : tunnel.hostnames ≤ limits.maxPublicHostnamesPerTunnel
  identities : tunnel.identities ≤ limits.maxClientIdentitiesPerTunnel
  totalHostnames : (totals.add tunnel).publicHostnames ≤ limits.maxPublicHostnamesTotal
  totalIdentities : (totals.add tunnel).clientIdentities ≤ limits.maxClientIdentitiesTotal

theorem Parts.counts (h : Parts tunnel id rawHostnames rawIdentities) :
    tunnel.hostnames = rawHostnames.length ∧ tunnel.identities = rawIdentities.length := by
  simp [RawServerTunnel.hostnames, RawServerTunnel.identities, h.hostnames.1, h.identities.1]

theorem tunnelLimits_eq_ok {totals' : Totals} (h : Parts tunnel id rawHostnames rawIdentities) :
    tunnelLimits limits totals rawHostnames rawIdentities = .ok totals' ↔
      Fits limits totals tunnel ∧ totals' = totals.add tunnel := by
  obtain ⟨hh, hi⟩ := h.counts
  unfold tunnelLimits
  simp only [bind_eq_ok, within_eq_ok, ← hh, ← hi]
  constructor
  · rintro ⟨_, h₁, _, h₂, _, h₃, _, h₄, h⟩
    cases h
    exact ⟨⟨h₁, h₂, h₃, h₄⟩, rfl⟩
  · rintro ⟨⟨h₁, h₂, h₃, h₄⟩, rfl⟩
    exact ⟨(), h₁, (), h₂, (), h₃, (), h₄, rfl⟩

theorem errs_tunnelLimits :
    Errs LimitExceeded (tunnelLimits limits totals rawHostnames rawIdentities) := by
  refine (errs_within _ _ _).bind fun _ => (errs_within _ _ _).bind fun _ => ?_
  refine (errs_within _ _ _).bind fun _ => (errs_within _ _ _).bind fun _ => ?_
  intro e h
  cases h

/-- The configuration of an entry, with every hostname and identity in its place. -/
structure ConfigOf (isIpAddr : String → Bool) (tunnel : RawServerTunnel)
    (config : ServerTunnelConfig) : Prop where
  parts : ∃ id rawHostnames rawIdentities, Parts tunnel id rawHostnames rawIdentities ∧
    config.id = some id ∧
    List.Forall₂ (fun raw hostname => PublicHostname.tryFrom isIpAddr raw = .ok hostname)
      rawHostnames config.publicHostnames ∧
    List.Forall₂ (fun raw identity => ClientIdentity.fromStr raw = .ok identity)
      rawIdentities config.authorizedClientIdentities

theorem tunnelValues_eq_ok {hostnames : List PublicHostname} {identities : List ClientIdentity} :
    tunnelValues isIpAddr index rawHostnames rawIdentities = .ok (hostnames, identities) ↔
      List.Forall₂ (fun raw hostname => PublicHostname.tryFrom isIpAddr raw = .ok hostname)
        rawHostnames hostnames ∧
      List.Forall₂ (fun raw identity => ClientIdentity.fromStr raw = .ok identity)
        rawIdentities identities := by
  unfold tunnelValues
  simp only [bind_eq_ok, mapM_eq_ok, shape_eq_ok]
  constructor
  · rintro ⟨hs, hhs, cs, hcs, h⟩
    cases h
    exact ⟨hhs, hcs⟩
  · rintro ⟨hhs, hcs⟩
    exact ⟨hostnames, hhs, identities, hcs, rfl⟩

theorem parseServerTunnel_eq_ok {config : ServerTunnelConfig} {totals' : Totals} :
    parseServerTunnel isIpAddr limits index tunnel totals = .ok (config, totals') ↔
      ConfigOf isIpAddr tunnel config ∧ Fits limits totals tunnel ∧
      totals' = totals.add tunnel := by
  unfold parseServerTunnel
  simp only [bind_eq_ok]
  constructor
  · rintro ⟨⟨id, hs, cs⟩, hp, totals₁, hl, ⟨hostnames, identities⟩, hv, h⟩
    have hp := tunnelParts_eq_ok.mp hp
    obtain ⟨hf, rfl⟩ := (tunnelLimits_eq_ok hp).mp hl
    cases h
    exact ⟨⟨id, hs, cs, hp, rfl, tunnelValues_eq_ok.mp hv⟩, hf, rfl⟩
  · rintro ⟨⟨id, hs, cs, hp, hid, hv⟩, hf, rfl⟩
    refine ⟨(id, hs, cs), tunnelParts_eq_ok.mpr hp, _,
      (tunnelLimits_eq_ok hp).mpr ⟨hf, rfl⟩, _, tunnelValues_eq_ok.mpr hv, ?_⟩
    rw [← hid]
    rfl

/-- An entry over a limit, with nothing wrong before its limits are looked at. -/
theorem parseServerTunnel_exceeded (hp : Parts tunnel id rawHostnames rawIdentities)
    (h : ¬Fits limits totals tunnel) :
    ∃ e, parseServerTunnel isIpAddr limits index tunnel totals = .error e ∧ LimitExceeded e := by
  cases hl : tunnelLimits limits totals rawHostnames rawIdentities with
  | ok totals' => exact absurd ((tunnelLimits_eq_ok hp).mp hl).1 h
  | error e =>
    refine ⟨e, ?_, errs_tunnelLimits e hl⟩
    rw [parseServerTunnel, tunnelParts_eq_ok.mpr hp]
    change (tunnelLimits limits totals rawHostnames rawIdentities >>= _) = _
    rw [hl]
    rfl

/-! ## What all entries come to -/

/-- The limits of a list of entries after the totals of those before it. -/
structure Within (limits : ManagedSessionLimits) (totals : Totals)
    (tunnels : List RawServerTunnel) : Prop where
  perTunnel : ∀ tunnel ∈ tunnels, tunnel.hostnames ≤ limits.maxPublicHostnamesPerTunnel ∧
    tunnel.identities ≤ limits.maxClientIdentitiesPerTunnel
  hostnames : totals.publicHostnames + (tunnels.map RawServerTunnel.hostnames).sum ≤
    limits.maxPublicHostnamesTotal
  identities : totals.clientIdentities + (tunnels.map RawServerTunnel.identities).sum ≤
    limits.maxClientIdentitiesTotal

variable {tunnels : List RawServerTunnel}

theorem within_cons : Within limits totals (tunnel :: tunnels) ↔
    Fits limits totals tunnel ∧ Within limits (totals.add tunnel) tunnels := by
  constructor
  · rintro ⟨hp, hh, hi⟩
    simp only [List.map_cons, List.sum_cons] at hh hi
    obtain ⟨⟨h₁, h₂⟩, hp⟩ := List.forall_mem_cons.mp hp
    refine ⟨⟨h₁, h₂, ?_, ?_⟩, hp, ?_, ?_⟩ <;> dsimp only [Totals.add] <;> omega
  · rintro ⟨hf, hp, hh, hi⟩
    simp only [Totals.add] at hh hi
    refine ⟨List.forall_mem_cons.mpr ⟨⟨hf.hostnames, hf.identities⟩, hp⟩, ?_, ?_⟩ <;>
      simp only [List.map_cons, List.sum_cons] <;> omega

theorem Fits.within_nil (h : Fits limits totals tunnel) : Within limits (totals.add tunnel) [] :=
  ⟨by simp, by simpa using h.totalHostnames, by simpa using h.totalIdentities⟩

theorem parseServerTunnels_eq_ok {configs : List ServerTunnelConfig}
    (ht : Within limits totals []) :
    parseServerTunnels isIpAddr limits index totals tunnels = .ok configs ↔
      List.Forall₂ (ConfigOf isIpAddr) tunnels configs ∧ Within limits totals tunnels := by
  induction tunnels generalizing index totals configs with
  | nil =>
    rw [parseServerTunnels, List.forall₂_nil_left_iff]
    constructor
    · intro h
      cases h
      exact ⟨rfl, ht⟩
    · rintro ⟨rfl, -⟩
      rfl
  | cons tunnel tunnels ih =>
    rw [parseServerTunnels, bind_eq_ok, List.forall₂_cons_left_iff, within_cons]
    constructor
    · rintro ⟨⟨config, totals'⟩, hp, h⟩
      obtain ⟨hc, hf, rfl⟩ := parseServerTunnel_eq_ok.mp hp
      obtain ⟨rest, hr, h⟩ := bind_eq_ok.mp h
      cases h
      obtain ⟨hr, hw⟩ := (ih hf.within_nil).mp hr
      exact ⟨⟨config, rest, hc, hr, rfl⟩, hf, hw⟩
    · rintro ⟨⟨config, rest, hc, hr, rfl⟩, hf, hw⟩
      refine ⟨(config, totals.add tunnel), parseServerTunnel_eq_ok.mpr ⟨hc, hf, rfl⟩, ?_⟩
      exact bind_eq_ok.mpr ⟨rest, (ih hf.within_nil).mpr ⟨hr, hw⟩, rfl⟩

end Runewarp.ManagedSession
