import Runewarp.ManagedSession.Input

/-!
# Limits of the role input

The documentation of the protocol lists limits of the input and says that a violation fails
the session.  `Exceeds` is that list, read off the JSON of an input.  A violation fails the
session exactly if no other defect comes before it in the order of the checks (`LimitsFirst`);
otherwise the snapshot is rejected and the session goes on.  A Tunnel ID over its length is
such a defect itself.
-/

namespace Runewarp.ManagedSession

open Server Client Checks

/-- The fields of a Tunnel entry, in the order of the record. -/
def entryFields : List String := ["id", "public_hostnames", "client_identities"]

/-- How many items there are under a field of an entry. -/
def entryItems (entry : Json) (field : Nat) : Nat :=
  match (entry.readFields entryFields).bind fun values => values[field]? with
  | some (.array items) => items.length
  | _ => 0

def entryId (entry : Json) : Option String :=
  ((entry.readFields entryFields).bind fun values => values[0]?).bind Json.asStr

/-- The documented limits of a Server input. -/
inductive Exceeds (limits : ManagedSessionLimits) (entries : List Json) : Prop
  | tunnels (h : limits.maxTunnels < entries.length)
  | hostnames (entry : Json) (hentry : entry ∈ entries)
      (h : limits.maxPublicHostnamesPerTunnel < entryItems entry 1)
  | identities (entry : Json) (hentry : entry ∈ entries)
      (h : limits.maxClientIdentitiesPerTunnel < entryItems entry 2)
  | totalHostnames
      (h : limits.maxPublicHostnamesTotal < (entries.map fun entry => entryItems entry 1).sum)
  | totalIdentities
      (h : limits.maxClientIdentitiesTotal < (entries.map fun entry => entryItems entry 2).sum)
  | tunnelId (entry : Json) (hentry : entry ∈ entries) (id : String) (hid : entryId entry = some id)
      (h : opaqueControlTokenMaxChars < id.toList.length)

/-- The entries before the first over a limit are valid, and that one has a valid ID and lists
that are not empty. -/
def ValidBefore (isIpAddr : String → Bool) (limits : ManagedSessionLimits) :
    Totals → List RawServerTunnel → Prop
  | _, [] => True
  | totals, tunnel :: tunnels =>
    (∃ id hostnames identities, Parts tunnel id hostnames identities) ∧
      (Fits limits totals tunnel → (∃ config, ConfigOf isIpAddr tunnel config) ∧
        ValidBefore isIpAddr limits (totals.add tunnel) tunnels)

/-- No defect of another kind comes before the first limit that is exceeded: there are too
many entries, or the other fields are valid, every entry is read, and they are valid up to the
first over a limit. -/
inductive LimitsFirst [Uuid.Library] (isIpAddr : String → Bool) (limits : ManagedSessionLimits)
    (input : Json) (entries : List Json) : Prop
  | tunnels (h : limits.maxTunnels < entries.length)
  | entries (tunnels : List RawServerTunnel)
      (hgeneration : ∃ generation, readReplacementGeneration input = .ok generation)
      (hdrain : ∃ drain, readDrain input = .ok drain)
      (hread : entries.mapM RawServerTunnel.read = some tunnels)
      (hbefore : ValidBefore isIpAddr limits {} tunnels)

/-- The input fails with a limit exceeded, and a connection that looks at it ends. -/
def EndsSession {I : Type} (parse : Json → Except InputError I) (input : Json) : Prop :=
  ∃ limit value max, max < value ∧ parse input = .error (.limitExceeded limit value max) ∧
    ∀ (c : ConnectionLifecycle Json I) (now : Instant) (applied : AppliedRevision)
      (revision : Revision),
      ¬(c.phase.isApplying = false ∧ applied.matchesRevision revision) →
      c.acceptEnvelope parse now applied ⟨revision, input⟩ =
        .error (.inputLimit limit value max)

/-- The input is invalid in another way, and a connection that looks at it rejects the
revision and goes on. -/
def KeepsSession {I : Type} (parse : Json → Except InputError I) (input : Json) : Prop :=
  (∃ message, parse input = .error (.invalidShape message)) ∧
    ∀ (c : ConnectionLifecycle Json I) (now : Instant) (applied : AppliedRevision)
      (revision : Revision),
      ¬(c.phase.isApplying = false ∧ applied.matchesRevision revision) →
      c.acceptEnvelope parse now applied ⟨revision, input⟩ =
        .ok (c.onEvent (.rejected revision))

section Session

variable {I : Type} {parse : Json → Except InputError I} {input : Json}

theorem endsSession_of_error {e : InputError} (h : parse input = .error e)
    (he : LimitExceeded e) : EndsSession parse input := by
  obtain ⟨limit, value, max, hlt, rfl⟩ := he
  refine ⟨limit, value, max, hlt, h, ?_⟩
  intro c now applied revision hn
  rw [ConnectionLifecycle.acceptEnvelope, if_neg hn, h]

theorem keepsSession_of_error {message : String}
    (h : parse input = .error (.invalidShape message)) : KeepsSession parse input := by
  refine ⟨⟨message, h⟩, ?_⟩
  intro c now applied revision hn
  rw [ConnectionLifecycle.acceptEnvelope, if_neg hn, h]

end Session

/-! ## Entries as they are read -/

variable {isIpAddr : String → Bool} {limits : ManagedSessionLimits} {input entry : Json}
  {entries : List Json} {tunnel : RawServerTunnel} {tunnels : List RawServerTunnel}

theorem read_eq_some (h : RawServerTunnel.read entry = some tunnel) :
    ∃ id hostnames identities, entry.readFields entryFields = some [id, hostnames, identities] ∧
      id.readOption Json.asStr = some tunnel.id ∧
      hostnames.readOption (Json.readList Json.asStr) = some tunnel.publicHostnames ∧
      identities.readOption (Json.readList Json.asStr) = some tunnel.clientIdentities := by
  unfold RawServerTunnel.read at h
  split at h
  · next id hostnames identities hf =>
    obtain ⟨rawId, hid, h⟩ := Option.bind_eq_some_iff.mp h
    obtain ⟨rawHostnames, hh, h⟩ := Option.bind_eq_some_iff.mp h
    obtain ⟨rawIdentities, hi, h⟩ := Option.bind_eq_some_iff.mp h
    cases h
    exact ⟨id, hostnames, identities, hf, hid, hh, hi⟩
  · cases h

theorem length_of_readOption {value : Json} {items : Option (List String)}
    (h : value.readOption (Json.readList Json.asStr) = some items) :
    (match some value with
      | some (.array items) => items.length
      | _ => 0) = (items.getD []).length := by
  cases value with
  | null =>
    cases h
    rfl
  | array values =>
    obtain ⟨texts, ht, rfl⟩ := Option.map_eq_some_iff.mp h
    exact (mapM_eq_some.mp ht).length_eq
  | bool _ => cases h
  | number _ => cases h
  | string _ => cases h
  | object _ => cases h

theorem entryItems_of_read (h : RawServerTunnel.read entry = some tunnel) :
    entryItems entry 1 = tunnel.hostnames ∧ entryItems entry 2 = tunnel.identities := by
  obtain ⟨id, hostnames, identities, hf, -, hh, hi⟩ := read_eq_some h
  unfold entryItems
  rw [hf]
  exact ⟨length_of_readOption hh, length_of_readOption hi⟩

theorem entryId_of_read (h : RawServerTunnel.read entry = some tunnel) {id : String}
    (hid : entryId entry = some id) : tunnel.id = some id := by
  obtain ⟨value, hostnames, identities, hf, hr, -, -⟩ := read_eq_some h
  rw [entryId, hf] at hid
  cases value with
  | string text =>
    cases hid
    exact (Option.some.inj hr).symm
  | null => cases hid
  | bool => cases hid
  | number => cases hid
  | array => cases hid
  | object => cases hid

theorem length_of_parse {rawId : String} {id : TunnelId} (h : TunnelId.parse rawId = .ok id) :
    rawId.toList.length ≤ opaqueControlTokenMaxChars := by
  obtain ⟨_, hv, -⟩ := map_ok h
  unfold validateOpaqueControlToken at hv
  split at hv
  · cases hv
  · split at hv
    · cases hv
    · next hl => exact Nat.not_lt.mp hl

/-- An input over a documented limit has an entry over one of those that are checked, or
one that is not valid. -/
theorem not_within_of_exceeds (hre : entries.mapM RawServerTunnel.read = some tunnels)
    (hex : Exceeds limits entries) (htu : entries.length ≤ limits.maxTunnels)
    (hv : ∀ tunnel ∈ tunnels, ∃ config, ConfigOf isIpAddr tunnel config) :
    ¬Within limits {} tunnels := by
  have ha := mapM_eq_some.mp hre
  intro hw
  cases hex with
  | tunnels h => omega
  | hostnames entry he h =>
    obtain ⟨tunnel, ht, he⟩ := exists_of_mem ha he
    have hco := (entryItems_of_read he).1
    have hpe := (hw.perTunnel tunnel ht).1
    omega
  | identities entry he h =>
    obtain ⟨tunnel, ht, he⟩ := exists_of_mem ha he
    have hco := (entryItems_of_read he).2
    have hpe := (hw.perTunnel tunnel ht).2
    omega
  | totalHostnames h =>
    have hc := map_eq_map_of_forall₂
      (ha.imp fun _ _ he => (entryItems_of_read he).1)
    have hto := hw.hostnames
    rw [← hc] at hto
    omega
  | totalIdentities h =>
    have hc := map_eq_map_of_forall₂
      (ha.imp fun _ _ he => (entryItems_of_read he).2)
    have hto := hw.identities
    rw [← hc] at hto
    omega
  | tunnelId entry he id hid h =>
    obtain ⟨tunnel, ht, he⟩ := exists_of_mem ha he
    obtain ⟨config, _, _, _, hpa, -⟩ := hv tunnel ht
    obtain ⟨rawId, hr, hp⟩ := hpa.id
    rw [entryId_of_read he hid] at hr
    cases hr
    exact absurd (length_of_parse hp) (Nat.not_le.mpr h)

theorem readServerInput_of_get (hg : input.get "tunnels" = some (.array entries)) :
    readServerInput input = (entries.mapM RawServerTunnel.read).map some := by
  cases input with
  | object fields =>
    have hl : fields.lookup "tunnels" = some (.array entries) := hg
    simp [readServerInput, Json.readFields, hl, Json.readOption, Json.readList]
  | null => cases hg
  | bool => cases hg
  | number => cases hg
  | string => cases hg
  | array => cases hg

/-! ## Limits that are exceeded -/

theorem endsSession_of_checkArray {I : Type} {key : String} {missing : InputError}
    {limit : LimitKind} {max : Nat} {message : String} {next : Json → Unit → Except InputError I}
    (hg : input.get key = some (.array entries)) (h : max < entries.length) :
    EndsSession (fun input => checkArray key missing limit max message input >>= next input)
      input := by
  refine endsSession_of_error ?_ ⟨limit, entries.length, max, h, rfl⟩
  rw [checkArray, hg]
  change (within limit entries.length max >>= _) = _
  rw [within, if_pos h]
  rfl

section Converse

variable {index : Nat} {totals : Totals} {e : InputError}

/-- A check that fails for other reasons than a limit. -/
abbrev NoLimit {α : Type} (x : Except InputError α) : Prop := Errs (¬LimitExceeded ·) x

theorem not_limitExceeded (message : String) : ¬LimitExceeded (.invalidShape message) := by
  rintro ⟨_, _, _, -, h⟩
  cases h

theorem noLimit_required {α : Type} {value : Option α} {message : String} :
    NoLimit (required value message) := by
  cases value <;> rintro e ⟨⟩
  exact not_limitExceeded _

theorem noLimit_shape {ε α : Type} {value : Except ε α} {message : ε → String} :
    NoLimit (shape value message) := by
  cases value <;> rintro e ⟨⟩
  exact not_limitExceeded _

theorem noLimit_nonEmpty {α : Type} {values : List α} {message : String} :
    NoLimit (nonEmpty values message) := by
  unfold nonEmpty
  split <;> rintro e ⟨⟩
  exact not_limitExceeded _

theorem noLimit_distinct {α : Type} [DecidableEq α] {message : α → String} {seen xs : List α} :
    NoLimit (distinct (fun x => InputError.invalidShape (message x)) seen xs) :=
  errs_distinct (P := (¬LimitExceeded ·)) fun _ => not_limitExceeded _

theorem noLimit_validateUniqueTunnelIds {seen : List TunnelId}
    {configs : List ServerTunnelConfig} : NoLimit (validateUniqueTunnelIds seen configs) := by
  induction configs generalizing seen with
  | nil => exact fun e he => by cases he
  | cons config configs ih =>
    unfold validateUniqueTunnelIds
    split
    · rintro e ⟨⟩
      exact not_limitExceeded _
    · split
      · rintro e ⟨⟩
        exact not_limitExceeded _
      · exact ih

/-- An entry that fails with a limit has its parts and is over it. -/
theorem parts_of_limit (h : parseServerTunnel isIpAddr limits index tunnel totals = .error e)
    (he : LimitExceeded e) :
    (∃ id hostnames identities, Parts tunnel id hostnames identities) ∧
      ¬Fits limits totals tunnel := by
  rcases bind_eq_error.mp h with h | ⟨⟨id, hostnames, identities⟩, hp, h⟩
  · have hn : NoLimit (tunnelParts index tunnel) :=
      noLimit_required.bind fun _ => noLimit_shape.bind fun _ => noLimit_required.bind fun _ =>
        noLimit_nonEmpty.bind fun _ => noLimit_required.bind fun _ =>
          noLimit_nonEmpty.bind fun _ _ he => by cases he
    exact absurd he (hn e h)
  · have hp := tunnelParts_eq_ok.mp hp
    refine ⟨⟨id, hostnames, identities, hp⟩, fun hf => ?_⟩
    rcases bind_eq_error.mp h with h | ⟨totals', -, h⟩
    · cases ((tunnelLimits_eq_ok hp).mpr ⟨hf, rfl⟩).symm.trans h
    · have hv : NoLimit (tunnelValues isIpAddr index hostnames identities) :=
        (errs_mapM fun _ => noLimit_shape).bind fun _ =>
          (errs_mapM fun _ => noLimit_shape).bind fun _ _ he => by cases he
      exact absurd he (hv.bind (fun _ _ he => by cases he) e h)

end Converse

/-- The loop over entries that are valid up to the first over a limit finds it, or all are valid
and within the limits. -/
theorem validBefore_iff (index : Nat) {totals : Totals} (hto : Within limits totals []) :
    ValidBefore isIpAddr limits totals tunnels ↔
      (∃ e, parseServerTunnels isIpAddr limits index totals tunnels = .error e ∧
        LimitExceeded e) ∨
      (Within limits totals tunnels ∧ ∀ t ∈ tunnels, ∃ config, ConfigOf isIpAddr t config) := by
  induction tunnels generalizing index totals with
  | nil => exact ⟨fun _ => .inr ⟨hto, nofun⟩, fun _ => trivial⟩
  | cons tunnel tunnels ih =>
    rw [ValidBefore, within_cons, List.forall_mem_cons, parseServerTunnels]
    constructor
    · rintro ⟨⟨id, hostnames, identities, hp⟩, hv⟩
      by_cases hf : Fits limits totals tunnel
      · obtain ⟨⟨config, hc⟩, hb⟩ := hv hf
        rcases (ih (index + 1) hf.within_nil).mp hb with ⟨e, he, hl⟩ | ⟨hw, ha⟩
        · refine .inl ⟨e, bind_eq_error.mpr (.inr ⟨_, parseServerTunnel_eq_ok.mpr ⟨hc, hf, rfl⟩,
            bind_eq_error.mpr (.inl he)⟩), hl⟩
        · exact .inr ⟨⟨hf, hw⟩, ⟨config, hc⟩, ha⟩
      · exact .inl ((parseServerTunnel_exceeded hp hf).imp fun e he =>
          ⟨bind_eq_error.mpr (.inl he.1), he.2⟩)
    · rintro (⟨e, h, hl⟩ | ⟨⟨hf, hw⟩, ⟨config, hc⟩, ha⟩)
      · rcases bind_eq_error.mp h with h | ⟨⟨config, totals'⟩, hp, h⟩
        · obtain ⟨hp, hf⟩ := parts_of_limit h hl
          exact ⟨hp, fun hfi => absurd hfi hf⟩
        · obtain ⟨hc, hf, rfl⟩ := parseServerTunnel_eq_ok.mp hp
          obtain ⟨id, hostnames, identities, hp, -⟩ := hc.parts
          refine ⟨⟨id, hostnames, identities, hp⟩, fun _ => ⟨⟨config, hc⟩, ?_⟩⟩
          rcases bind_eq_error.mp h with h | ⟨_, -, h⟩
          · exact (ih _ hf.within_nil).mpr (.inl ⟨e, h, hl⟩)
          · cases h
      · obtain ⟨id, hostnames, identities, hp, -⟩ := hc.parts
        exact ⟨⟨id, hostnames, identities, hp⟩,
          fun _ => ⟨⟨config, hc⟩, (ih index hf.within_nil).mpr (.inr ⟨hw, ha⟩)⟩⟩

theorem within_nil : Within limits {} [] := ⟨by simp, by simp, by simp⟩

theorem parseServerInput_exceeded [Uuid.Library]
    (hge : input.get "tunnels" = some (.array entries)) (hex : Exceeds limits entries)
    (hfi : LimitsFirst isIpAddr limits input entries) :
    EndsSession (parseServerInput isIpAddr limits) input := by
  by_cases ht : limits.maxTunnels < entries.length
  · exact endsSession_of_checkArray hge ht
  · cases hfi with
    | tunnels h => exact absurd h ht
    | entries tunnels hg hd hr hb =>
      obtain ⟨generation, hg⟩ := hg
      obtain ⟨drain, hd⟩ := hd
      rcases (validBefore_iff 0 within_nil).mp hb with ⟨e, he, hl⟩ | ⟨hw, hv⟩
      · refine endsSession_of_error (e := e) ?_ hl
        rw [parseServerInput, checkArray, hge]
        change (within _ _ _ >>= _) = _
        rw [(within_eq_ok (u := ())).mpr (Nat.not_lt.mp ht), hg, hd,
          readServerInput_of_get hge, hr]
        change (parseServerTunnels _ _ _ _ _ >>= _) = _
        rw [he]
        rfl
      · exact absurd hw (not_within_of_exceeds hr hex (Nat.not_lt.mp ht) hv)

/-- An input that fails with a limit has no other defect before it. -/
theorem limitsFirst_of_endsSession [Uuid.Library]
    (hge : input.get "tunnels" = some (.array entries))
    (h : EndsSession (parseServerInput isIpAddr limits) input) :
    LimitsFirst isIpAddr limits input entries := by
  obtain ⟨limit, value, max, hlt, h, -⟩ := h
  have hl : LimitExceeded (.limitExceeded limit value max) := ⟨limit, value, max, hlt, rfl⟩
  rcases bind_eq_error.mp h with h | ⟨_, -, h⟩
  · rw [checkArray, hge] at h
    refine .tunnels (Nat.lt_of_not_le fun hle => ?_)
    cases (within_eq_ok (u := ()).mpr hle).symm.trans h
  rcases bind_eq_error.mp h with h | ⟨generation, hg, h⟩
  · unfold readReplacementGeneration required at h
    split at h
    · cases h
    · split at h <;> cases h
  rcases bind_eq_error.mp h with h | ⟨drain, hd, h⟩
  · unfold readDrain at h
    split at h <;> cases h
  rcases bind_eq_error.mp h with h | ⟨raw, hr, h⟩
  · exact absurd hl (noLimit_required _ h)
  rw [required_eq_ok, readServerInput_of_get hge] at hr
  obtain ⟨tunnels, ht, rfl⟩ := Option.map_eq_some_iff.mp hr
  refine .entries tunnels ⟨generation, hg⟩ ⟨drain, hd⟩ ht ?_
  rcases bind_eq_error.mp h with h | ⟨configs, -, h⟩
  · exact (validBefore_iff _ within_nil).mpr (.inl ⟨_, h, hl⟩)
  · refine absurd hl (noLimit_validateUniqueTunnelIds.bind (fun _ => ?_) _ h)
    exact noLimit_distinct.bind fun _ => noLimit_distinct.bind fun _ _ he => by cases he

/-- A limit violation fails the session exactly if no other defect comes before it; for the
Client's addresses none does. -/
theorem limit_violations_fail_session [Uuid.Library] (isIpAddr : String → Bool)
    (limits : ManagedSessionLimits) :
    (∀ input entries, input.get "tunnels" = some (.array entries) → Exceeds limits entries →
      (EndsSession (parseServerInput isIpAddr limits) input ↔
        LimitsFirst isIpAddr limits input entries)) ∧
    ∀ input items, input.get "server_addresses" = some (.array items) →
      limits.maxServerAddresses < items.length →
      EndsSession (parseClientInput isIpAddr limits) input := by
  refine ⟨fun input entries hg he => ⟨limitsFirst_of_endsSession hg,
    parseServerInput_exceeded hg he⟩, fun input items hg h => ?_⟩
  exact endsSession_of_checkArray hg h

/-! ## Inputs over a limit -/

/-- A Client identity of zeros, as it is written. -/
def zeroIdentity : String := String.ofList (List.replicate 64 '0')

/-- A Tunnel entry. -/
def sampleEntry (id : String) (hostnames : List String) : Json :=
  .object [("id", .string id), ("public_hostnames", .array (hostnames.map .string)),
    ("client_identities", .array [.string zeroIdentity])]

/-- An entry that is valid but for a hostname too many, and an address too many. -/
theorem limit_violations_fail_session_two :
    letI := Uuid.plainLibrary
    EndsSession (parseServerInput (fun _ => false) { maxPublicHostnamesPerTunnel := 1 })
      (.object [("tunnels", .array [sampleEntry "a" ["a.test", "b.test"]])]) ∧
    EndsSession (parseClientInput (fun _ => false) { maxServerAddresses := 1 })
      (.object [("server_addresses", .array [.string "a.test", .string "b.test"])]) := by
  let _ := Uuid.plainLibrary
  refine ⟨((limit_violations_fail_session _ _).1 _ [sampleEntry "a" ["a.test", "b.test"]]
      rfl ?_).mpr ?_, (limit_violations_fail_session _ _).2 _ _ rfl (by decide)⟩
  · exact .hostnames _ (List.mem_singleton.mpr rfl) (by decide)
  · exact .entries [⟨some "a", some ["a.test", "b.test"], some [zeroIdentity]⟩] ⟨none, rfl⟩
      ⟨false, rfl⟩ rfl ⟨⟨⟨"a"⟩, _, _, ⟨"a", rfl, by decide⟩, ⟨rfl, by decide⟩, ⟨rfl, by decide⟩⟩,
        fun hf => absurd hf.hostnames (by decide)⟩

/-- An invalid ID in the first entry rejects the snapshot, whatever comes after it. -/
theorem keepsSession_of_firstId [Uuid.Library] {rawId : String} {error : OpaqueControlTokenError}
    (hr : entries.mapM RawServerTunnel.read = some (tunnel :: tunnels))
    (hle : entries.length ≤ limits.maxTunnels) (hra : tunnel.id = some rawId)
    (hid : TunnelId.parse rawId = .error error) :
    KeepsSession (parseServerInput isIpAddr limits) (.object [("tunnels", .array entries)]) := by
  have hpa : tunnelParts 0 tunnel = .error (.invalidShape
      (tunnelPath 0 ++ ".id is invalid `" ++ rawId ++ "`: " ++ error.display)) := by
    rw [tunnelParts, hra]
    change (shape (TunnelId.parse rawId) _ >>= _) = _
    rw [hid]
    rfl
  have hl : parseServerTunnels isIpAddr limits 0 {} (tunnel :: tunnels) = .error
      (.invalidShape (tunnelPath 0 ++ ".id is invalid `" ++ rawId ++ "`: " ++ error.display)) := by
    rw [parseServerTunnels, parseServerTunnel, hpa]
    rfl
  have hp : parseServerInput isIpAddr limits (.object [("tunnels", .array entries)]) = .error
      (.invalidShape (tunnelPath 0 ++ ".id is invalid `" ++ rawId ++ "`: " ++ error.display)) := by
    rw [parseServerInput, readServerInput_of_get rfl, hr]
    change (within .tunnels entries.length limits.maxTunnels >>= _) = _
    rw [(within_eq_ok (u := ())).mpr hle]
    change (parseServerTunnels _ _ _ _ _ >>= _) = _
    rw [hl]
    rfl
  exact keepsSession_of_error hp

theorem parse_tooLong {rawId : String} (h : opaqueControlTokenMaxChars < rawId.toList.length) :
    TunnelId.parse rawId = .error (.tooLong rawId.toList.length) := by
  have hne : rawId.toList ≠ [] := by
    intro hn
    rw [hn] at h
    exact absurd h (by decide)
  rw [TunnelId.parse, validateOpaqueControlToken, if_neg hne, if_pos h]
  rfl

theorem read_sampleEntry (id : String) (hostnames : List String) :
    RawServerTunnel.read (sampleEntry id hostnames) =
      some ⟨some id, some hostnames, some [zeroIdentity]⟩ := by
  have hs : (hostnames.map Json.string).mapM Json.asStr = some hostnames := by
    rw [mapM_eq_some, List.forall₂_map_left_iff, List.forall₂_same]
    exact fun _ _ => rfl
  simp [RawServerTunnel.read, sampleEntry, Json.readFields, Json.readOption, Json.readList,
    List.lookup_cons, Json.asStr, hs]

/-- A Tunnel ID of 129 characters. -/
def longId : String := String.ofList (List.replicate 129 'a')

theorem length_longId : longId.toList.length = 129 := by
  have ht : longId.toList = List.replicate 129 'a' := String.toList_ofList
  rw [ht]
  exact List.length_replicate

/-- A Tunnel ID over its length, and a hostname too many in an entry after one with an empty
ID: each is over a limit, and the session goes on. -/
theorem limit_violations_keep_session :
    (∃ entries, Exceeds {} entries ∧ ∀ [Uuid.Library] isIpAddr,
      KeepsSession (parseServerInput isIpAddr {}) (.object [("tunnels", .array entries)])) ∧
    ∃ entries, Exceeds { maxPublicHostnamesPerTunnel := 1 } entries ∧ ∀ [Uuid.Library] isIpAddr,
      KeepsSession (parseServerInput isIpAddr { maxPublicHostnamesPerTunnel := 1 })
        (.object [("tunnels", .array entries)]) := by
  have hl : opaqueControlTokenMaxChars < longId.toList.length := by
    rw [length_longId]
    decide
  have he : TunnelId.parse "" = .error .empty := by decide
  constructor
  · refine ⟨[sampleEntry longId ["a.test"]], ?_, fun _ => ?_⟩
    · exact .tunnelId (sampleEntry longId ["a.test"]) (List.mem_singleton.mpr rfl) longId rfl hl
    · have hr : [sampleEntry longId ["a.test"]].mapM RawServerTunnel.read =
          some [⟨some longId, some ["a.test"], some [zeroIdentity]⟩] := by
        rw [mapM_eq_some]
        exact .cons (read_sampleEntry _ _) .nil
      exact keepsSession_of_firstId hr (by decide) rfl (parse_tooLong hl)
  · refine ⟨[sampleEntry "" ["a.test"], sampleEntry "b" ["b.test", "c.test"]], ?_,
      fun _ => ?_⟩
    · exact .hostnames (sampleEntry "b" ["b.test", "c.test"]) (by simp) (by decide)
    · have hr : [sampleEntry "" ["a.test"], sampleEntry "b" ["b.test", "c.test"]].mapM
          RawServerTunnel.read = some [⟨some "", some ["a.test"], some [zeroIdentity]⟩,
            ⟨some "b", some ["b.test", "c.test"], some [zeroIdentity]⟩] := by
        rw [mapM_eq_some]
        exact .cons (read_sampleEntry _ _) (.cons (read_sampleEntry _ _) .nil)
      exact keepsSession_of_firstId hr (by decide) rfl he

end Runewarp.ManagedSession
