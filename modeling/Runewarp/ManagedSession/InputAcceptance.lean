import Runewarp.ManagedSession.InputLimits
import Runewarp.Server.AuthorizationMaps

/-!
# Which Server inputs are accepted

`Accepts` says what an accepted input is and what it becomes, without the order of the
checks.  An accepted input is also one that the Authorization snapshot is built from: the
two validators agree but for the Server's own hostname.
-/

namespace Runewarp

/-! ## Texts of identities -/

theorem hexPairs_bytes (bytes : List UInt8) :
    hexPairs (bytes.flatMap fun b => [hexDigit (b.toNat / 16), hexDigit b.toNat]) = some bytes := by
  induction bytes with
  | nil => rfl
  | cons b bytes ih =>
    have hh : b.toNat / 16 < 16 := by
      have := b.toNat_lt
      omega
    have hl : b.toNat % 16 < 16 := Nat.mod_lt _ (by decide)
    have hs : b.toNat / 16 * 16 + b.toNat % 16 = b.toNat := Nat.div_add_mod' b.toNat 16
    have hd : hexDigit (b.toNat / 16) = Nat.digitChar (b.toNat / 16) := by
      rw [hexDigit, Nat.mod_eq_of_lt hh]
    have hd' : hexDigit b.toNat = Nat.digitChar (b.toNat % 16) := rfl
    simp only [List.flatMap_cons, List.cons_append, List.nil_append, hexPairs, hd, hd',
      Hex.isLower_digitChar hh, Hex.isLower_digitChar hl, Hex.digitValue_digitChar hh,
      Hex.digitValue_digitChar hl, Bool.and_true, hs, UInt8.ofNat_toNat, ih,
      Option.map_some]

theorem ClientIdentity.display_injective : Function.Injective ClientIdentity.display := by
  intro c d h
  have hc := String.ofList_injective h
  have hb : some c.bytes = some d.bytes := by
    rw [← hexPairs_bytes c.bytes, ← hexPairs_bytes d.bytes, hc]
  obtain ⟨bytes, hl⟩ := c
  cases Option.some.inj hb
  rfl

namespace ManagedSession

open Server Checks

variable {isIpAddr : String → Bool} {limits : ManagedSessionLimits} {input : Json}
  {result : ServerManagedInput} {tunnels : List ServerTunnelConfig}

theorem validateUniqueTunnelIds_eq_ok {seen : List TunnelId} {u : Unit} :
    validateUniqueTunnelIds seen tunnels = .ok u ↔
      ∃ ids : List TunnelId, tunnels.map ServerTunnelConfig.id = ids.map some ∧ ids.Nodup ∧
        ∀ id ∈ ids, id ∉ seen := by
  induction tunnels generalizing seen with
  | nil =>
    constructor
    · intro _
      exact ⟨[], rfl, List.nodup_nil, by simp⟩
    · intro _
      rfl
  | cons tunnel tunnels ih =>
    rw [validateUniqueTunnelIds]
    constructor
    · intro h
      split at h
      · cases h
      · next id hid =>
        split at h
        · cases h
        · next hne =>
          obtain ⟨ids, hi, hn, hs⟩ := ih.mp h
          refine ⟨id :: ids, by rw [List.map_cons, hid, hi, List.map_cons], ?_, ?_⟩
          · exact List.nodup_cons.mpr
              ⟨fun hm => hs id hm (.head _), hn⟩
          · refine List.forall_mem_cons.mpr ⟨hne, fun x hx hm => ?_⟩
            exact hs x hx (.tail _ hm)
    · rintro ⟨ids, hi, hn, hs⟩
      cases ids with
      | nil => cases hi
      | cons id ids =>
        obtain ⟨hid, hi⟩ := List.cons.inj hi
        obtain ⟨hne, hn⟩ := List.nodup_cons.mp hn
        rw [hid]
        dsimp only
        rw [if_neg (hs id (.head _))]
        refine ih.mpr ⟨ids, hi, hn, fun x hx hm => ?_⟩
        rcases List.mem_cons.mp hm with rfl | hm
        · exact hne hx
        · exact hs x (.tail _ hx) hm

theorem checkArray_eq_ok {key message : String} {missing : InputError} {limit : LimitKind}
    {max : Nat} {u : Unit} : checkArray key missing limit max message input = .ok u ↔
      ∃ items, input.get key = some (.array items) ∧ items.length ≤ max := by
  unfold checkArray
  split
  · next h => simp [h]
  · next items h =>
    rw [within_eq_ok]
    simp [h]
  · next value hv h =>
    simp only [reduceCtorEq, false_iff, not_exists, not_and]
    intro items hi
    rw [h] at hi
    exact absurd (Option.some.inj hi) (hv items)

/-- What a Server input has to be, and what it becomes. -/
structure Accepts [Uuid.Library] (isIpAddr : String → Bool) (limits : ManagedSessionLimits)
    (input : Json) (result : ServerManagedInput) : Prop where
  /-- The entries are within the limits, and each becomes the Tunnel at its place. -/
  tunnels : ∃ entries raws, input.get "tunnels" = some (.array entries) ∧
    entries.length ≤ limits.maxTunnels ∧ entries.mapM RawServerTunnel.read = some raws ∧
    Within limits {} raws ∧ List.Forall₂ (ConfigOf isIpAddr) raws result.tunnels
  ids : (result.tunnels.map ServerTunnelConfig.id).Nodup
  hostnames : (result.tunnels.flatMap ServerTunnelConfig.publicHostnames).Nodup
  identities : (result.tunnels.flatMap ServerTunnelConfig.authorizedClientIdentities).Nodup
  generation : match input.get "replacement_generation" with
    | none => result.replacementGeneration = none
    | some value => ∃ text generation, value = .string text ∧
        ServerRuntimeGeneration.Wire text.toList ∧
        ServerRuntimeGeneration.parse text = some generation ∧
        result.replacementGeneration = some generation
  drain : match input.get "drain" with
    | none => result.drain = false
    | some value => value = .bool result.drain

theorem readReplacementGeneration_eq_ok [Uuid.Library]
    {generation : Option ServerRuntimeGeneration} :
    readReplacementGeneration input = .ok generation ↔
      match input.get "replacement_generation" with
      | none => generation = none
      | some value => ∃ text g, value = .string text ∧
          ServerRuntimeGeneration.Wire text.toList ∧
          ServerRuntimeGeneration.parse text = some g ∧ generation = some g := by
  unfold readReplacementGeneration
  cases input.get "replacement_generation" with
  | none => simp [eq_comm]
  | some value =>
    constructor
    · intro h
      obtain ⟨g, hg, rfl⟩ := map_ok h
      rw [required_eq_ok] at hg
      obtain ⟨text, ht, hp⟩ := Option.bind_eq_some_iff.mp hg
      cases value with
      | string text' =>
        cases ht
        have hw := ServerRuntimeGeneration.wire_iff.mpr
          ⟨g, ServerRuntimeGeneration.parse_eq_some.mp hp⟩
        exact ⟨text, g, rfl, hw, hp, rfl⟩
      | null => cases ht
      | bool => cases ht
      | number => cases ht
      | array => cases ht
      | object => cases ht
    · rintro ⟨text, g, rfl, -, hp, rfl⟩
      simp only [Json.asStr, Option.bind_some, hp, required]
      rfl

theorem readDrain_eq_ok {drain : Bool} : readDrain input = .ok drain ↔
    match input.get "drain" with
    | none => drain = false
    | some value => value = .bool drain := by
  unfold readDrain
  cases input.get "drain" with
  | none => simp [eq_comm]
  | some value => cases value <;> simp

theorem exists_ids {raws : List RawServerTunnel}
    (h : List.Forall₂ (ConfigOf isIpAddr) raws tunnels) :
    ∃ ids : List TunnelId, tunnels.map ServerTunnelConfig.id = ids.map some := by
  induction h with
  | nil => exact ⟨[], rfl⟩
  | cons hc _ ih =>
    obtain ⟨id, _, _, -, hid, -⟩ := hc
    obtain ⟨ids, hi⟩ := ih
    exact ⟨id :: ids, by rw [List.map_cons, hid, hi, List.map_cons]⟩

theorem tryFrom_normalized {raw : String} {hostname : PublicHostname}
    (h : PublicHostname.tryFrom isIpAddr raw = .ok hostname) :
    hostname.asStr = String.ofList (normalizePublicHostname raw) := by
  obtain ⟨text, ht, rfl⟩ := map_ok h
  exact (validatePublicHostname_eq_ok.mp ht).2

theorem parseServerInput_eq_ok [Uuid.Library] :
    parseServerInput isIpAddr limits input = .ok result ↔ Accepts isIpAddr limits input result := by
  have hni : Within limits {} [] := ⟨by simp, by simp, by simp⟩
  unfold parseServerInput
  simp only [bind_eq_ok, checkArray_eq_ok, required_eq_ok]
  constructor
  · rintro ⟨_, ⟨entries, hge, hl⟩, generation, hg, drain, hd, raw, hra, h⟩
    rw [readServerInput_of_get hge] at hra
    obtain ⟨raws, hr, rfl⟩ := Option.map_eq_some_iff.mp hra
    simp only [bind_eq_ok] at h
    obtain ⟨tunnels, ht, _, hid, _, hh, _, hi, h⟩ := h
    cases h
    obtain ⟨hc, hw⟩ := (parseServerTunnels_eq_ok hni).mp ht
    obtain ⟨ids, hm, hn, -⟩ := validateUniqueTunnelIds_eq_ok.mp hid
    refine ⟨⟨entries, raws, hge, hl, hr, hw, hc⟩, ?_,
      (distinct_eq_ok.mp hh).1, ?_, readReplacementGeneration_eq_ok.mp hg,
      readDrain_eq_ok.mp hd⟩
    · rw [hm]
      exact (List.nodup_map_iff (Option.some_injective _)).mpr hn
    · exact (List.nodup_map_iff ClientIdentity.display_injective).mp
        (distinct_eq_ok.mp hi).1
  · rintro ⟨⟨entries, raws, hge, hl, hr, hw, hc⟩, hid, hh, hi,
      hg, hd⟩
    have hra : readServerInput input = some (some raws) := by
      rw [readServerInput_of_get hge, hr]
      rfl
    refine ⟨(), ⟨entries, hge, hl⟩, _, readReplacementGeneration_eq_ok.mpr hg, _,
      readDrain_eq_ok.mpr hd, some raws, hra, ?_⟩
    simp only [bind_eq_ok]
    refine ⟨result.tunnels, (parseServerTunnels_eq_ok hni).mpr ⟨hc, hw⟩, (), ?_, (),
      distinct_eq_ok.mpr ⟨hh, by simp⟩, (), ?_, rfl⟩
    · obtain ⟨ids, hm⟩ := exists_ids hc
      refine validateUniqueTunnelIds_eq_ok.mpr ⟨ids, hm, ?_, by simp⟩
      rw [hm] at hid
      exact (List.nodup_map_iff (Option.some_injective _)).mp hid
    · refine distinct_eq_ok.mpr ⟨?_, by simp⟩
      exact (List.nodup_map_iff ClientIdentity.display_injective).mpr hi

/-- An accepted input is one the snapshot is built from. -/
theorem Accepts.distinct [Uuid.Library] (h : Accepts isIpAddr limits input result) :
    Distinct result.tunnels := by
  obtain ⟨entries, raws, -, -, -, -, hc⟩ := h.tunnels
  obtain ⟨ids, hm⟩ := exists_ids hc
  refine ⟨⟨ids, hm, ?_⟩, ?_, h.hostnames, h.identities⟩
  · have hi := h.ids
    rw [hm] at hi
    exact (List.nodup_map_iff (Option.some_injective _)).mp hi
  · intro tunnel ht hn
    obtain ⟨raw, -, id, rawHostnames, rawIdentities, hp, -, hh, -⟩ :=
      exists_of_mem hc.flip ht
    rw [hn, List.forall₂_nil_right_iff] at hh
    exact hp.hostnames.2 hh

/-- The hostnames of an entry, normalized. -/
def normalizedHostnames (raw : RawServerTunnel) : List String :=
  (raw.publicHostnames.getD []).map fun hostname =>
    String.ofList (normalizePublicHostname hostname)

theorem ConfigOf.normalized {raw : RawServerTunnel} {config : ServerTunnelConfig}
    (h : ConfigOf isIpAddr raw config) :
    config.publicHostnames.map PublicHostname.asStr = normalizedHostnames raw := by
  obtain ⟨id, rawHostnames, rawIdentities, hp, -, hh, -⟩ := h
  rw [normalizedHostnames, hp.hostnames.1, Option.getD_some]
  exact (map_eq_map_of_forall₂ (hh.imp fun _ _ h => (tryFrom_normalized h).symm)).symm

/-- The inputs that are accepted, what they become, and what the snapshot then holds. -/
theorem server_input_accepted [Uuid.Library] (isIpAddr : String → Bool)
    (limits : ManagedSessionLimits) (input : Json) :
    (∀ result, parseServerInput isIpAddr limits input = .ok result ↔
      Accepts isIpAddr limits input result) ∧
    ∀ result, parseServerInput isIpAddr limits input = .ok result →
      (∃ entries raws, input.get "tunnels" = some (.array entries) ∧
        entries.mapM RawServerTunnel.read = some raws ∧
        List.Forall₂ (fun raw config =>
          config.publicHostnames.map PublicHostname.asStr = normalizedHostnames raw)
          raws result.tunnels) ∧
      ∀ (current : AuthorizationSnapshot) (ids : List TunnelId) (serverHostname : ServerHostname),
        current.continuity = .managed ids →
        ((∃ e, current.prepareManagedReplacement serverHostname result.tunnels = .error e) ↔
          ∃ tunnel ∈ result.tunnels, ∃ hostname ∈ tunnel.publicHostnames,
            hostname.asStr = serverHostname.asStr) ∧
        ∀ snapshot,
          current.prepareManagedReplacement serverHostname result.tunnels = .ok snapshot →
          snapshot.Describes result.tunnels := by
  refine ⟨fun result => parseServerInput_eq_ok, fun result hr => ?_⟩
  have ha := parseServerInput_eq_ok.mp hr
  constructor
  · obtain ⟨entries, raws, hg, -, hra, -, hco⟩ := ha.tunnels
    exact ⟨entries, raws, hg, hra, hco.imp fun _ _ hcn => hcn.normalized⟩
  · intro current ids serverHostname hc
    have hi : (∃ e, current.prepareManagedReplacement serverHostname result.tunnels = .error e) ↔
        ∃ tunnel ∈ result.tunnels, ∃ hostname ∈ tunnel.publicHostnames,
          hostname.asStr = serverHostname.asStr :=
      prepareManagedReplacement_error_iff hc ha.distinct
    refine ⟨hi, fun snapshot hs => ?_⟩
    have hse : ∀ tunnel ∈ result.tunnels, ∀ hostname ∈ tunnel.publicHostnames,
        hostname.asStr ≠ serverHostname.asStr := by
      intro tunnel ht hostname hh heq
      obtain ⟨e, he⟩ := hi.mpr ⟨tunnel, ht, hostname, hh, heq⟩
      rw [hs] at he
      cases he
    obtain ⟨snapshot', hok, hd⟩ :=
      prepareManagedReplacement_ok hc ha.distinct hse
    rw [hs] at hok
    cases hok
    exact hd

/-- An input with two Tunnels, a hostname to normalize, a hint and a drain. -/
def sampleInput : Json :=
  .object [("tunnels", .array [sampleEntry "a" ["A.Test."],
      .object [("id", .string "c"), ("public_hostnames", .array [.string "c.test"]),
        ("client_identities", .array [.string (String.ofList (List.replicate 64 '1'))])]]),
    ("replacement_generation", .string "01928f3e-9c1d-7fed-9cba-9876543210fe"),
    ("drain", .bool true)]

/-- What the sample becomes. -/
def sampleResult : ServerManagedInput where
  tunnels := [⟨some ⟨"a"⟩, [⟨"a.test"⟩], [⟨List.replicate 32 0, List.length_replicate⟩]⟩,
    ⟨some ⟨"c"⟩, [⟨"c.test"⟩], [⟨List.replicate 32 0x11, List.length_replicate⟩]⟩]
  replacementGeneration := some ⟨0x01928f3e9c1d7fed9cba9876543210fe#128⟩
  drain := true

theorem server_input_accepted_sample :
    letI := Uuid.plainLibrary
    parseServerInput (fun _ => false) {} sampleInput = .ok sampleResult ∧
    Accepts (fun _ => false) {} sampleInput sampleResult ∧
    (∃ e, AuthorizationSnapshot.emptyManaged.prepareManagedReplacement ⟨"a.test"⟩
      sampleResult.tunnels = .error e) ∧
    ∃ snapshot, AuthorizationSnapshot.emptyManaged.prepareManagedReplacement ⟨"b.test"⟩
      sampleResult.tunnels = .ok snapshot ∧ snapshot.Describes sampleResult.tunnels := by
  let _ := Uuid.plainLibrary
  have hpa : parseServerInput (fun _ => false) {} sampleInput = .ok sampleResult := by
    decide +kernel
  obtain ⟨ha, hs⟩ := server_input_accepted (fun _ => false) {} sampleInput
  obtain ⟨-, hs⟩ := hs sampleResult hpa
  have hsa := hs .emptyManaged [] ⟨"a.test"⟩ rfl
  have ho := hs .emptyManaged [] ⟨"b.test"⟩ rfl
  refine ⟨hpa, (ha sampleResult).mp hpa, hsa.1.mpr ?_, ?_⟩
  · exact ⟨_, .head _, ⟨"a.test"⟩, List.mem_singleton.mpr rfl, rfl⟩
  · cases hp : AuthorizationSnapshot.emptyManaged.prepareManagedReplacement ⟨"b.test"⟩
        sampleResult.tunnels with
    | ok snapshot => exact ⟨snapshot, rfl, ho.2 snapshot hp⟩
    | error e =>
      obtain ⟨tunnel, ht, hostname, hh, heq⟩ := ho.1.mp ⟨e, hp⟩
      simp only [sampleResult, List.mem_cons, List.not_mem_nil, or_false] at ht
      rcases ht with rfl | rfl <;> cases List.mem_singleton.mp hh <;> exact absurd heq (by decide)

end ManagedSession

end Runewarp
