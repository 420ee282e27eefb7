import Runewarp.ManagedSession.Lifecycle
import Runewarp.Server.RegistrySteps

/-!
# The Server behind a Managed session

The Server's role adapter applies an input by one call of
`replace_authorization`, publishes the replacement hint and begins a requested
drain.  The session polls that call while its connection is in the applying
phase and drops it, wherever it stands, when the connection ends.  The registry
goes on between the polls.

The applied revision is recorded when the call returns, but the snapshot is
installed earlier.  A connection that ends in between leaves the old revision on
record over the new snapshot.  `applied_revision_describes_installed` says that
nothing else separates the two.
-/

namespace Runewarp.Server

open ManagedSession

/-- `ServerRuntimeGeneration`, a UUID. -/
structure ServerRuntimeGeneration where
  uuid : BitVec 128
  deriving DecidableEq

structure ServerManagedInput where
  tunnels : List ServerTunnelConfig
  replacementGeneration : Option ServerRuntimeGeneration := none
  drain : Bool := false
  deriving DecidableEq

/-- A Managed Server: `ServerAuthorizationAdapter` and the session that drives
it. -/
structure ManagedServer (V : Type) where
  serverHostname : ServerHostname
  session : Session V ServerManagedInput
  registry : TunnelRegistry
  replacementGeneration : Option ServerRuntimeGeneration := none
  draining : Bool := false

/-- Whether an action belongs to a call of `replace_authorization`. -/
def TunnelRegistry.Action.replaces : TunnelRegistry.Action → Bool
  | .replaceAuthorization _ _ => true
  | .pollReplace => true
  | _ => false

namespace ManagedServer

variable {V : Type}

/-- A Server that has just started. -/
def start (serverHostname : ServerHostname) (registry : TunnelRegistry) : ManagedServer V :=
  { serverHostname, session := { roleState := true }, registry }

/-- The snapshot whose apply is in progress. -/
def applying (s : ManagedServer V) : Option (QueuedSnapshot ServerManagedInput) :=
  s.session.connection.bind fun c =>
    match c.phase with
    | .applying snapshot => some snapshot
    | .idle => none

/-- The apply is polled by the select of the applying phase only. -/
def polled (s : ManagedServer V) : Option (QueuedSnapshot ServerManagedInput) :=
  s.session.connection.bind fun c =>
    match c.control, c.phase with
    | .select _, .applying snapshot => some snapshot
    | _, _ => none

/-- What the adapter does after `replace_authorization` has returned. -/
def publish (s : ManagedServer V) (input : ServerManagedInput) : ManagedServer V :=
  { s with
    replacementGeneration := input.replacementGeneration
    registry := if input.drain then s.registry.stopAcceptingNewWork else s.registry
    draining := s.draining || input.drain }

def applyReturns (parseInput : V → Except InputError ServerManagedInput) (s : ManagedServer V)
    (result : Except ApplyError Unit) : Option (ManagedServer V) :=
  (s.session.step parseInput (.connection (.applyReturns result))).map fun session =>
    { s with session }

/-- A poll of the apply in progress.  There is no await between the return of
`replace_authorization` and the record of the revision. -/
def pollApply (parseInput : V → Except InputError ServerManagedInput) (s : ManagedServer V) :
    Option (ManagedServer V) :=
  s.polled.bind fun snapshot =>
    match s.registry.replace with
    | none =>
      match ManagedSnapshot.ofTunnels s.serverHostname snapshot.input.tunnels with
      | .error e => s.applyReturns parseInput (.error ⟨e.message⟩)
      | .ok prepared => some { s with registry := s.registry.beginReplace prepared }
    | some _ =>
      s.registry.pollReplace.bind fun registry =>
        match registry.replace with
        | some _ => some { s with registry }
        | none =>
          ({ s with registry }.publish snapshot.input).applyReturns parseInput (.ok ())

/-- The registry after the apply's future is dropped. -/
def dropApply (registry : TunnelRegistry) : Option TunnelRegistry :=
  match registry.replace with
  | none => some registry
  | some _ => registry.dropReplace

/-- A step of the session.  The apply in progress ends with its connection. -/
def sessionStep (parseInput : V → Except InputError ServerManagedInput) (s : ManagedServer V)
    (a : Session.Action V) : Option (ManagedServer V) :=
  (s.session.step parseInput a).bind fun session =>
    if s.applying.isSome ∧ session.connection.isNone then
      (dropApply s.registry).map fun registry => { s with session, registry }
    else some { s with session }

inductive Action (V : Type) where
  | session (action : Session.Action V)
  | pollApply
  /-- A step of another task of the Server. -/
  | registry (action : TunnelRegistry.Action)

def system (parseInput : V → Except InputError ServerManagedInput) :
    Lts (ManagedServer V) (Action V) where
  step s
    | .session a => if a.returnsApply then none else s.sessionStep parseInput a
    | .pollApply => s.pollApply parseInput
    | .registry a =>
      if a.replaces then none
      else (TunnelRegistry.system.step s.registry a).map fun registry => { s with registry }

/-! ## What a step can do -/

theorem applying_eq_some {s : ManagedServer V} {snapshot : QueuedSnapshot ServerManagedInput} :
    s.applying = some snapshot ↔
      ∃ c, s.session.connection = some c ∧ c.phase = .applying snapshot := by
  constructor
  · intro h
    obtain ⟨c, hc, h⟩ := Option.bind_eq_some_iff.mp h
    refine ⟨c, hc, ?_⟩
    split at h
    · next hp => cases h; exact hp
    · cases h
  · rintro ⟨c, hc, hp⟩
    simp [applying, hc, hp]

theorem applying_of_polled {s : ManagedServer V} {snapshot : QueuedSnapshot ServerManagedInput}
    (h : s.polled = some snapshot) : s.applying = some snapshot := by
  obtain ⟨c, hc, h⟩ := Option.bind_eq_some_iff.mp h
  refine applying_eq_some.mpr ⟨c, hc, ?_⟩
  split at h
  · next hp =>
    cases h
    exact hp
  · cases h

/-- The steps of a Managed Server. -/
inductive Move (parseInput : V → Except InputError ServerManagedInput) (s : ManagedServer V) :
    Action V → ManagedServer V → Prop where
  | session :
      a.returnsApply = false →
      Session.Step parseInput s.session a session' →
      (session'.connection = none → s.applying = none) →
      Move parseInput s (.session a) { s with session := session' }
  | drop :
      s.applying = some snapshot →
      session'.connection = none →
      session'.applied = s.session.applied →
      dropApply s.registry = some registry' →
      Move parseInput s (.session a) { s with session := session', registry := registry' }
  | reject :
      s.polled = some snapshot →
      s.registry.replace = none →
      Session.Step parseInput s.session (.connection (.applyReturns (.error error))) session' →
      Move parseInput s .pollApply { s with session := session' }
  | begin :
      s.polled = some snapshot →
      s.registry.replace = none →
      ManagedSnapshot.ofTunnels s.serverHostname snapshot.input.tunnels = .ok prepared →
      Move parseInput s .pollApply { s with registry := s.registry.beginReplace prepared }
  | poll :
      s.registry.replace ≠ none →
      s.registry.ReplaceStep registry' →
      registry'.replace ≠ none →
      Move parseInput s .pollApply { s with registry := registry' }
  | finish :
      s.polled = some snapshot →
      s.registry.replace ≠ none →
      s.registry.ReplaceStep registry' →
      registry'.replace = none →
      Session.Step parseInput s.session (.connection (.applyReturns (.ok ()))) session' →
      Move parseInput s .pollApply
        { { s with registry := registry' }.publish snapshot.input with session := session' }
  | other :
      registry'.authorization = s.registry.authorization →
      registry'.replace = s.registry.replace →
      Move parseInput s (.registry a) { s with registry := registry' }

section

variable {parseInput : V → Except InputError ServerManagedInput} {s s' : ManagedServer V}

theorem move_of_sessionStep {a : Session.Action V} (ha : a.returnsApply = false)
    (h : s.sessionStep parseInput a = some s') : Move parseInput s (.session a) s' := by
  obtain ⟨session', hst, h⟩ := Option.bind_eq_some_iff.mp h
  have hs := Session.step_cases hst
  split at h
  · next hd =>
    obtain ⟨registry', hr, rfl⟩ := Option.map_eq_some_iff.mp h
    obtain ⟨snapshot, hq⟩ := Option.isSome_iff_exists.mp hd.1
    exact .drop hq (by simpa using hd.2) (hs.applied_eq ha) hr
  · next hk =>
    cases h
    refine .session ha hs ?_
    intro hn
    simpa [hn] using hk

theorem move_of_pollApply (h : s.pollApply parseInput = some s') :
    Move parseInput s .pollApply s' := by
  obtain ⟨snapshot, hq, h⟩ := Option.bind_eq_some_iff.mp h
  split at h
  · next hn =>
    split at h
    · obtain ⟨session', hs, rfl⟩ := Option.map_eq_some_iff.mp h
      exact .reject hq hn (Session.step_cases hs)
    · next hv =>
      cases h
      exact .begin hq hn hv
  · next hso =>
    obtain ⟨registry', hp, h⟩ := Option.bind_eq_some_iff.mp h
    have hm := TunnelRegistry.replaceStep_of_pollReplace hp
    split at h
    · next hg =>
      cases h
      exact .poll (by simp [hso]) hm (by simp [hg])
    · next hd =>
      obtain ⟨session', hs, rfl⟩ := Option.map_eq_some_iff.mp h
      exact .finish hq (by simp [hso]) hm hd (Session.step_cases hs)

theorem move_of_registry {a : TunnelRegistry.Action} {registry' : TunnelRegistry}
    (ha : a.replaces = false) (h : TunnelRegistry.system.step s.registry a = some registry') :
    Move parseInput s (.registry a) { s with registry := registry' } := by
  cases TunnelRegistry.poolsStep_of_step h with
  | same hs => exact .other hs.authorization hs.replace
  | start | replace => cases ha
  | _ => exact .other rfl rfl

theorem move_of_step {a : Action V} (h : (system parseInput).step s a = some s') :
    Move parseInput s a s' := by
  cases a with
  | session a =>
    obtain ⟨ha, hs⟩ := Option.ite_none_left_eq_some.mp h
    exact move_of_sessionStep (by simpa using ha) hs
  | pollApply => exact move_of_pollApply h
  | registry a =>
    obtain ⟨ha, h⟩ := Option.ite_none_left_eq_some.mp h
    obtain ⟨registry', hs, rfl⟩ := Option.map_eq_some_iff.mp h
    exact move_of_registry (by simpa using ha) hs

end

/-! ## The applied revision -/

/-- The snapshot built from a raw input. -/
def built (parseInput : V → Except InputError ServerManagedInput)
    (serverHostname : ServerHostname) (input : V) : Option ManagedSnapshot :=
  (parseInput input).toOption.bind fun input =>
    (ManagedSnapshot.ofTunnels serverHostname input.tunnels).toOption

/-- The call of `replace_authorization` has installed its snapshot. -/
def committed (registry : TunnelRegistry) : Bool :=
  match registry.replace with
  | none => false
  | some (.awaitPools _ _) => false
  | some (.locked _ _) => false
  | some _ => true

section Revision

variable (parseInput : V → Except InputError ServerManagedInput) (inputOf : Revision → V)

def CarriesNamed : StreamItem V → Prop
  | .snapshot envelope => envelope.input = inputOf envelope.revision
  | _ => True

/-- Control's part: a revision names one input. -/
def NamesOneInput : Action V → Prop
  | .session (.connection (.chunk (.items items))) => ∀ item ∈ items, CarriesNamed inputOf item
  | _ => True

instance [DecidableEq V] (item : StreamItem V) : Decidable (CarriesNamed inputOf item) :=
  match item with
  | .snapshot envelope => inferInstanceAs (Decidable (envelope.input = inputOf envelope.revision))
  | .ignored => .isTrue trivial
  | .invalid => .isTrue trivial

instance [DecidableEq V] (a : Action V) : Decidable (NamesOneInput inputOf a) := by
  unfold NamesOneInput
  split
  · infer_instance
  · exact .isTrue trivial

/-- A connection does not end while its apply has installed a snapshot other than
the one the applied revision names. -/
def EndsBeforeCommit (s : ManagedServer V) (a : Action V) : Prop :=
  ∀ s', (system parseInput).step s a = some s' → s'.session.connection = none →
    committed s.registry →
    ∀ r ∈ s.session.applied.revision, ∀ snapshot ∈ s.applying,
      built parseInput s.serverHostname (inputOf r) =
        built parseInput s.serverHostname (inputOf snapshot.revision)

/-- The applied revision names the installed snapshot, and so does a snapshot that
is about to be reported in place of an apply. -/
structure Faithful (s : ManagedServer V) : Prop where
  installed : s.applying = none → ∀ r ∈ s.session.applied.revision,
    built parseInput s.serverHostname (inputOf r) = some s.registry.authorization.snapshot
  reported : ∀ c ∈ s.session.connection, ∀ envelope items,
    c.control = .ingest (.snapshot envelope :: items) → c.phase = .idle →
    s.session.applied.revision = some envelope.revision →
    built parseInput s.serverHostname envelope.input = some s.registry.authorization.snapshot

/-- What a connection holds carries the inputs its revisions name. -/
structure Named (c : ConnectionLifecycle V ServerManagedInput) : Prop where
  items : ∀ items, c.control = .ingest items → ∀ item ∈ items, CarriesNamed inputOf item
  pending : ∀ q, c.queue.pending = some q → parseInput (inputOf q.revision) = .ok q.input
  applying : ∀ q, c.phase = .applying q → parseInput (inputOf q.revision) = .ok q.input

structure RevisionInv (s : ManagedServer V) : Prop where
  named : ∀ c, s.session.connection = some c → Named parseInput inputOf c
  quiet : s.applying = none → s.registry.replace = none
  target : ∀ snapshot, s.applying = some snapshot → s.registry.replace ≠ none →
    ∃ next, ManagedSnapshot.ofTunnels s.serverHostname snapshot.input.tunnels = .ok next ∧
      s.registry.Installs next
  describes : ¬ committed s.registry → ∀ r, s.session.applied.revision = some r →
    built parseInput s.serverHostname (inputOf r) = some s.registry.authorization.snapshot

end Revision

variable {parseInput : V → Except InputError ServerManagedInput} {inputOf : Revision → V}

theorem Named.turn {applied applied' : AppliedRevision}
    {c c' : ConnectionLifecycle V ServerManagedInput} {a : ConnectionLifecycle.Action V}
    (h : Named parseInput inputOf c) (ht : Turn parseInput applied c a applied' c')
    (ha : NamesOneInput inputOf (.session (.connection a))) : Named parseInput inputOf c' := by
  cases ht with
  | wait | select => exact ⟨by simp, h.pending, h.applying⟩
  | chunk => exact ⟨by rintro _ ⟨⟩; exact ha, h.pending, h.applying⟩
  | ignored hc | reported hc | invalid hc =>
    refine ⟨fun items hi => ?_, h.pending, h.applying⟩
    cases hi
    exact fun e he => h.items _ hc e (.tail _ he)
  | noted hc _ hp =>
    refine ⟨fun items hi => ?_, ?_, h.applying⟩
    · cases hi
      exact fun e he => h.items _ hc e (.tail _ he)
    · intro q hq
      cases hq
      have hin : _ = inputOf _ := h.items _ hc _ (.head _)
      exact hin ▸ hp
  | current hto =>
    exact ⟨by simp [hto], by simp, h.applying⟩
  | start hto _ hqu =>
    refine ⟨by simp [hto], by simp, ?_⟩
    intro q hq
    cases hq
    exact h.pending _ (by rw [hqu])
  | _ =>
    exact ⟨by simp, h.pending, by simp⟩

theorem built_eq_some {serverHostname : ServerHostname} {v : V} {input : ServerManagedInput}
    {next : ManagedSnapshot} (hp : parseInput v = .ok input)
    (hv : ManagedSnapshot.ofTunnels serverHostname input.tunnels = .ok next) :
    built parseInput serverHostname v = some next := by
  simp [built, hp, hv, Except.toOption]

variable {r : TunnelRegistry} {s : ManagedServer V} {session' : Session V ServerManagedInput}
  {snapshot : QueuedSnapshot ServerManagedInput}

/-- A move of the replacement that leaves it uncommitted installs nothing. -/
theorem uncommitted_of_replaceStep {r' : TunnelRegistry} (h : r.ReplaceStep r')
    (hg : r'.replace ≠ none) (hu : ¬ committed r') :
    ¬ committed r ∧ r'.authorization = r.authorization := by
  cases h with
  | lock hr _ => exact ⟨by simp [committed, hr], rfl⟩
  | finish _ => exact absurd rfl hg
  | _ => exact absurd rfl hu

theorem dropApply_eq {r' : TunnelRegistry} (h : dropApply r = some r') :
    r'.replace = none ∧ r'.authorization = r.authorization := by
  unfold dropApply at h
  split at h
  · next hn =>
    cases h
    exact ⟨hn, rfl⟩
  · unfold TunnelRegistry.dropReplace at h
    split at h
    all_goals cases h
    all_goals exact ⟨rfl, rfl⟩

theorem Installs.of_committed {next : ManagedSnapshot} (h : r.Installs next) (hc : committed r) :
    r.authorization.snapshot = next := by
  unfold committed at hc
  unfold TunnelRegistry.Installs at h
  split at h
  · next hr => simp [hr] at hc
  · next hr => simp [hr] at hc
  · exact h

theorem applying_eq_none :
    s.applying = none ↔ ∀ c, s.session.connection = some c → c.phase = .idle := by
  cases hc : s.session.connection with
  | none => simp [applying, hc]
  | some c =>
    cases hp : c.phase with
    | idle => simp [applying, hc, hp]
    | applying q => simp [applying, hc, hp]

theorem not_committed_of_none (h : r.replace = none) : ¬ committed r := by
  simp [committed, h]

/-- A turn other than the return of an apply keeps the phase or starts an apply. -/
theorem phase_of_turn {applied applied' : AppliedRevision}
    {c c' : ConnectionLifecycle V ServerManagedInput} {a : ConnectionLifecycle.Action V}
    (ht : Turn parseInput applied c a applied' c') (ha : a.returnsApply = false) :
    c'.phase = c.phase ∨ c.phase = .idle := by
  cases ht with
  | start _ hi _ => exact .inr hi
  | applied _ | rejected _ => cases ha
  | _ => exact .inl rfl

theorem RevisionInv.session {a : Session.Action V} (h : RevisionInv parseInput inputOf s)
    (hst : Session.Step parseInput s.session a session') (ha : a.returnsApply = false)
    (he : session'.connection = none → s.applying = none)
    (hn : NamesOneInput inputOf (.session a)) :
    RevisionInv parseInput inputOf { s with session := session' } := by
  have hd : ¬ committed s.registry → ∀ r, session'.applied.revision = some r →
      built parseInput s.serverHostname (inputOf r) = some s.registry.authorization.snapshot := by
    rw [hst.applied_eq ha]
    exact h.describes
  cases hst with
  | tick => exact ⟨h.named, h.quiet, h.target, hd⟩
  | connect hno =>
    have hi : s.applying = none := by simp [applying, hno]
    refine ⟨?_, fun _ => h.quiet hi, ?_, hd⟩
    · rintro c ⟨⟩
      exact ⟨by simp [ConnectionLifecycle.connect], by simp [ConnectionLifecycle.connect],
        by simp [ConnectionLifecycle.connect]⟩
    · intro q hq
      simp [applying, ConnectionLifecycle.connect] at hq
  | ends =>
    exact ⟨by simp, fun _ => h.quiet (he rfl), by simp [applying], hd⟩
  | @turn c _ _ c' hc ht =>
    refine ⟨?_, ?_, ?_, hd⟩
    · rintro c ⟨⟩
      exact (h.named _ hc).turn ht hn
    · intro hi
      have hi' := applying_eq_none.mp hi c' rfl
      refine h.quiet (applying_eq_none.mpr ?_)
      rintro c₁ hc₁
      cases hc.symm.trans hc₁
      rcases phase_of_turn ht ha with heq | heq
      · rw [← heq, hi']
      · exact heq
    · intro q hq hs
      obtain ⟨c₁, hc₁, hp⟩ := applying_eq_some.mp hq
      cases hc₁
      rcases phase_of_turn ht ha with heq | heq
      · exact h.target q (applying_eq_some.mpr ⟨c, hc, heq ▸ hp⟩) hs
      · refine absurd (h.quiet (applying_eq_none.mpr ?_)) hs
        rintro c₁ hc₁
        cases hc.symm.trans hc₁
        exact heq

/-- The return of an apply leaves the connection idle.  The revision is recorded
when the apply has succeeded. -/
theorem RevisionInv.returned {result : Except ApplyError Unit}
    (h : RevisionInv parseInput inputOf s) (hq : s.applying = some snapshot)
    (hs : Session.Step parseInput s.session (.connection (.applyReturns result)) session') :
    (∀ c, session'.connection = some c → Named parseInput inputOf c) ∧
      (∀ c, session'.connection = some c → c.phase = .idle) ∧
      session'.applied = match result with
        | .ok _ => s.session.applied.set snapshot.revision
        | .error _ => s.session.applied := by
  obtain ⟨c, hc, hp⟩ := applying_eq_some.mp hq
  cases hs with
  | ends ha => cases ha
  | turn hc₁ ht =>
    cases hc.symm.trans hc₁
    have hn := (h.named c hc).turn ht trivial
    cases ht with
    | wait ha => cases ha
    | applied hp₁ | rejected hp₁ =>
      cases hp.symm.trans hp₁
      exact ⟨by rintro _ ⟨⟩; exact hn, by rintro _ ⟨⟩; rfl, rfl⟩

theorem RevisionInv.drop {registry' : TunnelRegistry} (h : RevisionInv parseInput inputOf s)
    (hq : s.applying = some snapshot) (hno : session'.connection = none)
    (ha : session'.applied = s.session.applied) (hd : dropApply s.registry = some registry')
    (hs : committed s.registry → ∀ r ∈ s.session.applied.revision,
      built parseInput s.serverHostname (inputOf r) =
        built parseInput s.serverHostname (inputOf snapshot.revision)) :
    RevisionInv parseInput inputOf { s with session := session', registry := registry' } := by
  obtain ⟨hi, hau⟩ := dropApply_eq hd
  refine ⟨by simp [hno], fun _ => hi, by simp [applying, hno], ?_⟩
  intro _ r hr
  rw [hau]
  rw [ha] at hr
  by_cases hc : committed s.registry
  · obtain ⟨c, hco, hp⟩ := applying_eq_some.mp hq
    obtain ⟨next, hv, hin⟩ := h.target snapshot hq fun hn => not_committed_of_none hn hc
    rw [hs hc r hr, Installs.of_committed hin hc]
    exact built_eq_some ((h.named c hco).applying snapshot hp) hv
  · exact h.describes hc r hr

theorem RevisionInv.finish {registry' : TunnelRegistry} (h : RevisionInv parseInput inputOf s)
    (hq : s.applying = some snapshot) (hg : s.registry.replace ≠ none)
    (hm : s.registry.ReplaceStep registry') (hd : registry'.replace = none)
    (hs : Session.Step parseInput s.session (.connection (.applyReturns (.ok ()))) session') :
    RevisionInv parseInput inputOf
      { { s with registry := registry' }.publish snapshot.input with session := session' } := by
  obtain ⟨c, hc, hph⟩ := applying_eq_some.mp hq
  obtain ⟨hn, hi, ha⟩ := h.returned hq hs
  obtain ⟨next, hv, hin⟩ := h.target snapshot hq hg
  have hb : built parseInput s.serverHostname (inputOf snapshot.revision) = some next :=
    built_eq_some ((h.named c hc).applying snapshot hph) hv
  have hi' : registry'.authorization.snapshot = next := by
    have := hin.replaceStep hm
    rwa [TunnelRegistry.Installs, hd] at this
  -- Sealing new work for a drain touches neither the snapshot nor the call.
  have hp :
      ({ s with registry := registry' }.publish snapshot.input).registry.replace = none ∧
      ({ s with registry := registry' }.publish snapshot.input).registry.authorization =
        registry'.authorization := by
    unfold publish
    cases snapshot.input.drain
    · exact ⟨hd, rfl⟩
    · exact ⟨hd, rfl⟩
  have hno : ManagedServer.applying
      { { s with registry := registry' }.publish snapshot.input with session := session' } = none :=
    applying_eq_none.mpr hi
  refine ⟨hn, fun _ => hp.1, ?_, ?_⟩
  · intro q hq'
    rw [hno] at hq'
    cases hq'
  · intro _ r hr
    rw [ha] at hr
    cases hr
    show built parseInput s.serverHostname (inputOf snapshot.revision) = some _
    rw [hb, ← hi']
    exact congrArg (fun ref => some ref.snapshot) hp.2.symm

theorem RevisionInv.step {s' : ManagedServer V} {a : Action V}
    (h : RevisionInv parseInput inputOf s) (hn : NamesOneInput inputOf a)
    (he : EndsBeforeCommit parseInput inputOf s a) (hst : (system parseInput).step s a = some s') :
    RevisionInv parseInput inputOf s' := by
  cases move_of_step hst with
  | session ha hs hen => exact h.session hs ha hen hn
  | drop hq hno hap hdr =>
    exact h.drop hq hno hap hdr fun hc r hr => he _ hst hno hc r hr _ hq
  | reject hq hno hs =>
    obtain ⟨hna, hi, hap⟩ := h.returned (applying_of_polled hq) hs
    refine ⟨hna, fun _ => hno, fun _ _ hso => absurd hno hso, fun hu r hr => ?_⟩
    exact h.describes hu r ((congrArg AppliedRevision.revision hap).symm.trans hr)
  | @begin snapshot prepared hq hno hv =>
    have hq' := applying_of_polled hq
    refine ⟨h.named, fun hi => ?_, fun q hq₁ _ => ?_, fun _ => ?_⟩
    · cases hq'.symm.trans hi
    · cases hq'.symm.trans hq₁
      exact ⟨prepared, hv, rfl⟩
    · exact h.describes (not_committed_of_none hno)
  | poll hb hm hg =>
    refine ⟨h.named, fun hi => absurd (h.quiet hi) hb, fun q hq _ => ?_, fun hu => ?_⟩
    · obtain ⟨next, hv, hin⟩ := h.target q hq hb
      exact ⟨next, hv, hin.replaceStep hm⟩
    · obtain ⟨hu', hau⟩ := uncommitted_of_replaceStep hm hg hu
      rw [hau]
      exact h.describes hu'
  | finish hq hg hm hd hs =>
    exact h.finish (applying_of_polled hq) hg hm hd hs
  | other hau hre =>
    refine ⟨h.named, fun hi => hre.trans (h.quiet hi), fun q hq hso => ?_, ?_⟩
    · obtain ⟨next, hv, hin⟩ := h.target q hq (hre ▸ hso)
      refine ⟨next, hv, ?_⟩
      simpa only [TunnelRegistry.Installs, hau, hre] using hin
    · simpa only [committed, hau, hre] using h.describes

/-- In every run in which a revision names one input and no connection ends after
its apply has installed another snapshot, the applied revision names the snapshot
the Server enforces. -/
theorem applied_revision_describes_installed
    (parseInput : V → Except InputError ServerManagedInput) (inputOf : Revision → V)
    (serverHostname : ServerHostname) (registry : TunnelRegistry) (s : ManagedServer V)
    (hquiet : registry.replace = none)
    (hrun : (system parseInput).Steps
      (fun s a => NamesOneInput inputOf a ∧ EndsBeforeCommit parseInput inputOf s a)
      (start serverHostname registry) s) :
    Faithful parseInput inputOf s := by
  have hs : RevisionInv parseInput inputOf (start serverHostname registry) :=
    ⟨by simp [start], fun _ => hquiet, by simp [start, applying], by simp [start]⟩
  have h := hrun.invariant (I := RevisionInv parseInput inputOf)
    (fun _ _ _ h hok hst => h.step hok.1 hok.2 hst) hs
  have hi : s.applying = none → ∀ r ∈ s.session.applied.revision,
      built parseInput s.serverHostname (inputOf r) = some s.registry.authorization.snapshot :=
    fun hid r hr => h.describes (not_committed_of_none (h.quiet hid)) r hr
  refine ⟨hi, ?_⟩
  intro c hc envelope items hco hp hm
  have hid : s.applying = none := by
    refine applying_eq_none.mpr fun c₁ hc₁ => ?_
    cases hc₁.symm.trans hc
    exact hp
  have hin : envelope.input = inputOf envelope.revision :=
    (h.named c hc).items _ hco _ (.head _)
  rw [hin]
  exact hi hid _ hm

/-- The inputs of two revisions: `"r1"` trusts one identity, any other revision
trusts another. -/
def sampleInput (r : Revision) : ServerManagedInput :=
  if r = "r1" then ⟨[sampleTunnel "a" [sampleIdentity 1]], none, false⟩
  else ⟨[sampleTunnel "a" [sampleIdentity 2]], none, false⟩

/-- A connection in its select receives revision `r` and polls the apply `n` times. -/
def receive (r : Revision) (n : Nat) : List (Action ServerManagedInput) :=
  [.session (.connection (.chunk (.items [.snapshot ⟨r, sampleInput r⟩]))),
    .session (.connection .ingest), .session (.connection .ingest),
    .session (.connection .drive), .session (.connection .drive)] ++
  List.replicate n .pollApply

def connectAndWait : List (Action ServerManagedInput) :=
  [.session (.connect 0), .session (.connection .drive)]

def sampleServer : ManagedServer ServerManagedInput :=
  start ⟨"tunnel.example.test"⟩ (.fromAuthorizationWithAdmission .empty {})

/-- The connection of `"r2"` ends before the commit of its apply; the next connection
applies `"r2"` to its end. -/
theorem applied_revision_after_early_end :
    ∃ s, (system .ok).Steps
        (fun s a => NamesOneInput sampleInput a ∧ EndsBeforeCommit .ok sampleInput s a)
        sampleServer s ∧
      s.session.applied.revision = some "r2" ∧ Faithful .ok sampleInput s := by
  have he : ∃ s ∈ (system .ok).execWhile (fun s a => NamesOneInput sampleInput a ∧
        (((system .ok).step s a).all fun s' =>
          s'.session.connection.isSome || !committed s.registry) = true) sampleServer
        (connectAndWait ++ receive "r1" 7 ++ [.session (.connection .drive)] ++
          receive "r2" 1 ++ [.session (.connection (.chunk .failed))] ++
          connectAndWait ++ receive "r2" 10),
      s.session.applied.revision = some "r2" := by
    decide
  obtain ⟨s, hs, hr⟩ := he
  have hru : (system .ok).Steps
      (fun s a => NamesOneInput sampleInput a ∧ EndsBeforeCommit .ok sampleInput s a)
      sampleServer s := by
    refine (Lts.Steps.of_execWhile hs).mono ?_
    rintro t a ⟨hn, ha⟩
    refine ⟨hn, ?_⟩
    intro t' ht hno hc
    simp [ht, hno, hc] at ha
  exact ⟨s, hru, hr, applied_revision_describes_installed .ok sampleInput _ _ s rfl hru⟩

/-- The connection ends after the apply of `"r2"` has installed its snapshot.
Revision `"r1"` stays on record while the Server trusts the identity of `"r2"`. -/
theorem dropped_apply_keeps_old_revision :
    ∃ s, (system .ok).Steps (fun _ a => NamesOneInput sampleInput a) sampleServer s ∧
      ¬ Faithful .ok sampleInput s := by
  have he : ∃ s ∈ (system .ok).execWhile (fun _ a => NamesOneInput sampleInput a) sampleServer
        (connectAndWait ++ receive "r1" 7 ++ [.session (.connection .drive)] ++
          receive "r2" 3 ++ [.session (.connection (.chunk .failed))]),
      (s.applying.isNone = true ∧ s.session.applied.revision = some "r1") ∧
        (built .ok s.serverHostname (sampleInput "r1")).map ManagedSnapshot.trusted =
          some [sampleIdentity 1] ∧
        s.registry.authorization.snapshot.trusted = [sampleIdentity 2] := by
    decide
  obtain ⟨s, hs, ⟨hi, hr⟩, hold, hn⟩ := he
  refine ⟨s, .of_execWhile hs, fun h => ?_⟩
  rw [h.installed (by simpa using hi) "r1" hr, Option.map_some, hn] at hold
  revert hold
  decide

end ManagedServer

end Runewarp.Server
