import Runewarp.Server.ManagedAdapter
import Runewarp.Server.RegistryMoves

/-!
# What a draining Server reports

Control takes a state document with `draining` set and no Visitors as the sign that the
Server can go: nothing is in flight and nothing will be.  The document is rendered from
three places, one after the other, while Visitors come and go: the pools, then the drain
flag, then the number of records.  An apply that asks for a drain seals the work table
before it sets the flag.  So whoever has read the flag reads the number of records of a
sealed table, and a sealed table without records stays without.
-/

namespace Runewarp.Server

namespace TunnelRegistry

/-- The first part of `stop_accepting_new_work`. -/
def refuseTunnelConnections (s : TunnelRegistry) : TunnelRegistry :=
  { s with acceptingTunnelConnections := false }

/-- The second part of `stop_accepting_new_work`. -/
def sealVisitorWork (s : TunnelRegistry) : TunnelRegistry :=
  { s with visitorWork := { s.visitorWork with isSealed := true } }

def inFlightVisitorCount (s : TunnelRegistry) : Nat := s.visitorWork.work.length

end TunnelRegistry

/-- The fields of a Server's state document. -/
structure ServerStateFields where
  generation : ServerRuntimeGeneration
  draining : Bool
  tunnels : List (TunnelId × Nat)
  visitors : Nat

/-- A call of `ServerReportedState::fields`. -/
inductive RenderTask where
  /-- At `tunnel_pools.read().await` of `reported_tunnel_connections`. -/
  | awaitPools
  /-- Holds the read guard; at `connections().await` of the first of `todo`. -/
  | visiting (todo : List (TunnelId × PoolId)) (reported : List (TunnelId × Nat))
  /-- The Tunnel connections are known. -/
  | counted (tunnels : List (TunnelId × Nat))
  /-- The drain flag has been read. -/
  | flagged (tunnels : List (TunnelId × Nat)) (draining : Bool)
  | rendered (fields : ServerStateFields)

/-- A call of `apply`. -/
inductive ApplyTask where
  /-- In `replace_authorization`. -/
  | replacing (input : ServerManagedInput)
  /-- Before `set_replacement_generation`. -/
  | publishing (input : ServerManagedInput)
  /-- In `stop_accepting_new_work`, before each of its two parts. -/
  | refusing
  | sealing
  /-- Before `drain.begin`. -/
  | beginning

/-- `ServerAuthorizationAdapter` with the registry, its Visitors, and the documents that
are being rendered. -/
structure ReportingServer where
  serverHostname : ServerHostname
  generation : ServerRuntimeGeneration
  visitors : RoutedVisitors
  replacementGeneration : Option ServerRuntimeGeneration := none
  draining : Bool := false
  apply : Option ApplyTask := none
  renders : Nat → Option RenderTask := fun _ => none
  nextRender : Nat := 0

namespace ReportingServer

def setRegistry (s : ReportingServer) (registry : TunnelRegistry) : ReportingServer :=
  { s with visitors := { s.visitors with registry } }

def setRender (s : ReportingServer) (t : Nat) (task : RenderTask) : ReportingServer :=
  { s with renders := Function.update s.renders t (some task) }

/-- The call of `apply`, up to the first await.  An input that is not valid is rejected
and changes nothing. -/
def startApply (s : ReportingServer) (input : ServerManagedInput) : Option ReportingServer :=
  match s.apply, s.visitors.registry.replace with
  | none, none =>
    match ManagedSnapshot.ofTunnels s.serverHostname input.tunnels with
    | .error _ => some s
    | .ok snapshot =>
      some { s.setRegistry (s.visitors.registry.beginReplace snapshot) with
        apply := some (.replacing input) }
  | _, _ => none

def pollApply (s : ReportingServer) : Option ReportingServer :=
  match s.apply with
  | none => none
  | some (.replacing input) =>
    s.visitors.registry.pollReplace.map fun registry =>
      { s.setRegistry registry with
        apply := match registry.replace with
          | some _ => some (.replacing input)
          | none => some (.publishing input) }
  | some (.publishing input) =>
    some { s with
      replacementGeneration := input.replacementGeneration
      apply := if input.drain then some .refusing else none }
  | some .refusing =>
    some { s.setRegistry s.visitors.registry.refuseTunnelConnections with apply := some .sealing }
  | some .sealing =>
    some { s.setRegistry s.visitors.registry.sealVisitorWork with apply := some .beginning }
  | some .beginning => some { s with draining := true, apply := none }

/-- The session drops the future of `apply` at an await. -/
def dropApply (s : ReportingServer) : Option ReportingServer :=
  match s.apply with
  | some (.replacing _) =>
    s.visitors.registry.dropReplace.map fun registry =>
      { s.setRegistry registry with apply := none }
  | _ => none

/-- A state request renders its document. -/
def startRender (s : ReportingServer) : ReportingServer :=
  { s with nextRender := s.nextRender + 1 }.setRender s.nextRender .awaitPools

/-- One step of `fields`.  `session` says which connections have a WebTransport session. -/
def pollRender (s : ReportingServer) (t : Nat) (session : ServerTunnel → Bool) :
    Option ReportingServer :=
  let registry := s.visitors.registry
  match s.renders t with
  | none => none
  | some .awaitPools =>
    (registry.poolsLock.read (.report t)).map fun lock =>
      (s.setRegistry { registry with poolsLock := lock }).setRender t
        (.visiting (registry.authorization.snapshot.tunnelIds.zip registry.tunnelPools) [])
  | some (.visiting ((id, p) :: todo) reported) =>
    let opened := (registry.pools p).connections.filter fun c => session c && !registry.closed c
    some (s.setRender t (.visiting todo (reported ++ [(id, opened.length)])))
  | some (.visiting [] reported) =>
    some ((s.setRegistry { registry with
      poolsLock := registry.poolsLock.releaseRead (.report t) }).setRender t (.counted reported))
  | some (.counted tunnels) => some (s.setRender t (.flagged tunnels s.draining))
  | some (.flagged tunnels draining) =>
    some (s.setRender t
      (.rendered ⟨s.generation, draining, tunnels, registry.inFlightVisitorCount⟩))
  | some (.rendered _) => none

/-- The request is dropped at an await. -/
def dropRender (s : ReportingServer) (t : Nat) : Option ReportingServer :=
  let registry := s.visitors.registry
  let dropped := { s with renders := Function.update s.renders t none }
  match s.renders t with
  | some .awaitPools => some dropped
  | some (.visiting (_ :: _) _) =>
    some (dropped.setRegistry { registry with
      poolsLock := registry.poolsLock.releaseRead (.report t) })
  | _ => none

inductive Action where
  | apply (input : ServerManagedInput)
  | pollApply
  | dropApply
  | render
  | pollRender (t : Nat) (session : ServerTunnel → Bool)
  | dropRender (t : Nat)
  /-- A step of the registry and its Visitors that is not part of an apply. -/
  | visitors (action : RoutedVisitors.Action)

end ReportingServer

/-- Whether an action belongs to a call of `replace_authorization`. -/
def RoutedVisitors.Action.replaces : RoutedVisitors.Action → Bool
  | .registry a => a.replaces
  | .dropReplace => true
  | _ => false

namespace ReportingServer

def system : Lts ReportingServer Action where
  step s
    | .apply input => s.startApply input
    | .pollApply => s.pollApply
    | .dropApply => s.dropApply
    | .render => some s.startRender
    | .pollRender t session => s.pollRender t session
    | .dropRender t => s.dropRender t
    | .visitors a =>
      if a.replaces then none
      else (RoutedVisitors.system.step s.visitors a).map fun visitors => { s with visitors }

end ReportingServer

/-! ## A sealed table -/

namespace TunnelRegistry

/-- A sealed work table stays sealed, and gets no record while it has none. -/
structure KeepsSeal (s s' : TunnelRegistry) : Prop where
  isSealed : s.visitorWork.isSealed = true → s'.visitorWork.isSealed = true
  empty : s.visitorWork.isSealed = true → s.visitorWork.work = [] →
    s'.visitorWork.work = [] ∧ s'.nextStreamId = s.nextStreamId

section

variable {s s' : TunnelRegistry}

theorem KeepsSeal.of_eq (hw : s'.visitorWork = s.visitorWork)
    (hid : s'.nextStreamId = s.nextStreamId) : KeepsSeal s s' :=
  ⟨fun h => hw ▸ h, fun _ h => ⟨hw ▸ h, hid⟩⟩

theorem keepsSeal_dropAdmission (s : TunnelRegistry) (t : Nat) : KeepsSeal s (s.dropAdmission t) :=
  ⟨id, fun _ h => ⟨h, rfl⟩⟩

theorem keepsSeal_dropLoad (s : TunnelRegistry) (work : ActiveVisitorWork) :
    KeepsSeal s (s.dropLoad work) := .of_eq rfl rfl

theorem keepsSeal_removeRecord (s : TunnelRegistry) (t : Nat) (work : ActiveVisitorWork) :
    KeepsSeal s (s.removeRecord t work) := by
  refine ⟨id, fun _ h => ⟨?_, rfl⟩⟩
  simp [removeRecord, setVisitor, h]

theorem keepsSeal_dropWork (s : TunnelRegistry) (t : Nat) (work : ActiveVisitorWork) :
    KeepsSeal s (s.dropWork t work) := by
  have h := keepsSeal_removeRecord (s.dropLoad work) t work
  exact ⟨h.isSealed, h.empty⟩

/-- A registration with a sealed table is refused. -/
theorem keepsSeal_registerActiveVisitorWork (s : TunnelRegistry) (t : Nat) (h : PublicHostname)
    (route : VisitorRoute) : KeepsSeal s (s.registerActiveVisitorWork t h route) := by
  unfold registerActiveVisitorWork
  split
  · exact keepsSeal_dropAdmission s t
  · next ho =>
    have hno : s.visitorWork.isSealed = true → False := fun hs => ho (by simp [hs])
    exact ⟨fun hs => (hno hs).elim, fun hs => (hno hs).elim⟩

theorem keepsSeal_pollVisitor {t : Nat} (h : s.pollVisitor t = some s') : KeepsSeal s s' := by
  unfold pollVisitor at h
  split at h
  · obtain ⟨lock, -, rfl⟩ := Option.map_eq_some_iff.mp h
    exact .of_eq rfl rfl
  · dsimp only at h
    split at h
    · cases h
      exact ⟨id, fun _ h => ⟨h, rfl⟩⟩
    · split at h
      · cases h
        exact ⟨id, fun _ h => ⟨h, rfl⟩⟩
      · cases h
        exact .of_eq rfl rfl
  · dsimp only at h
    split at h
    · cases h
      exact ⟨id, fun _ h => ⟨h, rfl⟩⟩
    · cases h
      exact .of_eq rfl rfl
  · cases h
    exact keepsSeal_registerActiveVisitorWork _ _ _ _
  · split at h
    · cases h
      exact keepsSeal_dropWork s t _
    · cases h
      exact .of_eq rfl rfl
  · cases h
    exact keepsSeal_dropWork s t _
  · cases h
  · cases h

theorem keepsSeal_dropVisitor {t : Nat} (h : s.dropVisitor t = some s') : KeepsSeal s s' := by
  unfold dropVisitor at h
  split at h
  · cases h
    exact keepsSeal_dropAdmission s t
  · cases h
    exact keepsSeal_dropAdmission s t
  · cases h
    exact keepsSeal_dropAdmission s t
  · cases h
    exact keepsSeal_dropWork s t _
  · cases h
    exact keepsSeal_dropWork s t _
  all_goals cases h

/-- The rest of the registry leaves the records alone. -/
theorem SameVisitors.keepsSeal (h : SameVisitors s s') : KeepsSeal s s' := by
  have hv := h.view
  simp only [visitorsView, Prod.mk.injEq] at hv
  obtain ⟨-, -, -, hi, hid, -⟩ := hv
  refine ⟨h.isSealed, fun _ he => ⟨?_, hid⟩⟩
  rw [he, List.map_nil] at hi
  exact List.map_eq_nil_iff.mp hi

theorem keepsSeal_of_step {a : Action} (h : system.step s a = some s') : KeepsSeal s s' := by
  cases ha : a.isVisitor with
  | false => exact (sameVisitors_of_step ha h).keepsSeal
  | true =>
    cases a with
    | visitor host =>
      cases h
      simp only [startVisitor]
      split
      · exact .of_eq rfl rfl
      · exact ⟨id, fun _ h => ⟨h, rfl⟩⟩
    | pollVisitor t => exact keepsSeal_pollVisitor h
    | dropVisitor t => exact keepsSeal_dropVisitor h
    | _ => cases ha

theorem keepsSeal_dropReplace (h : s.dropReplace = some s') : KeepsSeal s s' := by
  unfold dropReplace at h
  split at h <;> cases h <;> exact .of_eq rfl rfl

end

end TunnelRegistry

theorem RoutedVisitors.RegistryMove.keepsSeal {r r' : TunnelRegistry} (h : RegistryMove r r') :
    r.KeepsSeal r' := by
  cases h with
  | step hs => exact TunnelRegistry.keepsSeal_of_step hs
  | cancel hc => exact TunnelRegistry.keepsSeal_dropReplace hc
  | same => exact .of_eq rfl rfl
  | dropLoad => exact TunnelRegistry.keepsSeal_dropLoad _ _
  | removeRecord => exact TunnelRegistry.keepsSeal_removeRecord _ _ _

namespace ReportingServer

/-! ## What a step can do -/

/-- The steps, as far as the drain and the documents are concerned. -/
inductive Move (s : ReportingServer) : ReportingServer → Prop where
  /-- The registry moves, and with it a part of an apply that has sealed nothing yet. -/
  | still {s' : ReportingServer} :
      s.visitors.registry.KeepsSeal s'.visitors.registry →
      s'.draining = s.draining →
      s'.apply ≠ some .beginning ∨ s'.apply = s.apply →
      s'.renders = s.renders →
      Move s s'
  | sealing : Move s { s.setRegistry s.visitors.registry.sealVisitorWork with
      apply := some .beginning }
  | begin : s.apply = some .beginning → Move s { s with draining := true, apply := none }
  /-- A document that has not read the flag. -/
  | render {s' : ReportingServer} {task : RenderTask} :
      s.visitors.registry.KeepsSeal s'.visitors.registry →
      s'.draining = s.draining →
      s'.apply = s.apply →
      s'.renders = Function.update s.renders t (some task) →
      (∀ tunnels draining, task = .flagged tunnels draining → draining = s.draining) →
      Move s s'
  | drop {s' : ReportingServer} :
      s.visitors.registry.KeepsSeal s'.visitors.registry →
      s'.draining = s.draining →
      s'.apply = s.apply →
      s'.renders = Function.update s.renders t none →
      Move s s'

variable {s s' : ReportingServer}

theorem move_of_pollApply (h : s.pollApply = some s') : Move s s' := by
  unfold pollApply at h
  split at h
  · cases h
  · obtain ⟨registry', hp, rfl⟩ := Option.map_eq_some_iff.mp h
    refine .still (TunnelRegistry.keepsSeal_of_step (a := .pollReplace) hp) rfl (.inl ?_) rfl
    split <;> simp
  · cases h
    refine .still (.of_eq rfl rfl) rfl (.inl ?_) rfl
    split <;> simp
  · cases h
    exact .still (.of_eq rfl rfl) rfl (.inl (by simp)) rfl
  · cases h
    exact .sealing
  · next ha =>
    cases h
    exact .begin ha

theorem move_of_pollRender {t : Nat} {session : ServerTunnel → Bool}
    (h : s.pollRender t session = some s') : Move s s' := by
  unfold pollRender at h
  split at h
  · cases h
  · obtain ⟨lock, -, rfl⟩ := Option.map_eq_some_iff.mp h
    exact .render (.of_eq rfl rfl) rfl rfl rfl (by simp)
  · cases h
    exact .render (.of_eq rfl rfl) rfl rfl rfl (by simp)
  · cases h
    exact .render (.of_eq rfl rfl) rfl rfl rfl (by simp)
  · cases h
    refine .render (.of_eq rfl rfl) rfl rfl rfl fun tunnels draining heq => ?_
    cases heq
    rfl
  · cases h
    exact .render (.of_eq rfl rfl) rfl rfl rfl (by simp)
  · cases h

theorem move_of_step {a : Action} (h : system.step s a = some s') : Move s s' := by
  cases a with
  | apply input =>
    change s.startApply input = some s' at h
    unfold startApply at h
    split at h
    · split at h
      · cases h
        exact .still (.of_eq rfl rfl) rfl (.inr rfl) rfl
      · cases h
        exact .still (.of_eq rfl rfl) rfl (.inl (by simp)) rfl
    · cases h
  | pollApply => exact move_of_pollApply h
  | dropApply =>
    change s.dropApply = some s' at h
    unfold dropApply at h
    split at h
    · obtain ⟨registry', hd, rfl⟩ := Option.map_eq_some_iff.mp h
      exact .still (TunnelRegistry.keepsSeal_dropReplace hd) rfl (.inl (by simp)) rfl
    · cases h
  | render =>
    cases h
    exact .render (.of_eq rfl rfl) rfl rfl rfl (by simp)
  | pollRender t session => exact move_of_pollRender h
  | dropRender t =>
    change s.dropRender t = some s' at h
    unfold dropRender at h
    split at h
    · cases h
      exact .drop (.of_eq rfl rfl) rfl rfl rfl
    · cases h
      exact .drop (.of_eq rfl rfl) rfl rfl rfl
    · cases h
  | visitors a =>
    obtain ⟨-, h⟩ := Option.ite_none_left_eq_some.mp h
    obtain ⟨visitors', hs, rfl⟩ := Option.map_eq_some_iff.mp h
    exact .still (RoutedVisitors.registryMove_of_step hs).keepsSeal rfl (.inr rfl) rfl

theorem Move.keepsSeal (h : Move s s') : s.visitors.registry.KeepsSeal s'.visitors.registry := by
  cases h with
  | still hk | render hk | drop hk => exact hk
  | sealing => exact ⟨fun _ => rfl, fun _ h => ⟨h, rfl⟩⟩
  | begin => exact .of_eq rfl rfl

/-! ## The seal comes before the flag -/

/-- The work table is sealed when the flag is about to be set, once it is set, and once a
document has read it as set. -/
structure SealedFirst (s : ReportingServer) : Prop where
  beginning : s.apply = some .beginning → s.visitors.registry.visitorWork.isSealed = true
  draining : s.draining = true → s.visitors.registry.visitorWork.isSealed = true
  flagged : ∀ t tunnels, s.renders t = some (.flagged tunnels true) →
    s.visitors.registry.visitorWork.isSealed = true

theorem SealedFirst.move (h : s.SealedFirst) (hs : Move s s') : s'.SealedFirst := by
  have hk := hs.keepsSeal.isSealed
  cases hs with
  | still _ hdr ha hr =>
    refine ⟨fun hb => ?_, fun hd => ?_, fun t tunnels ht => ?_⟩
    · rcases ha with hne | heq
      · exact absurd hb hne
      · exact hk (h.beginning (heq ▸ hb))
    · exact hk (h.draining (hdr ▸ hd))
    · exact hk (h.flagged t tunnels (hr ▸ ht))
  | sealing => exact ⟨fun _ => rfl, fun _ => rfl, fun _ _ _ => rfl⟩
  | begin ha =>
    have hse := h.beginning ha
    exact ⟨fun _ => hse, fun _ => hse, fun _ _ _ => hse⟩
  | @render t _ task _ hdr ha hr hre =>
    refine ⟨fun hb => ?_, fun hd => ?_, fun u tunnels hu => ?_⟩
    · exact hk (h.beginning (ha ▸ hb))
    · exact hk (h.draining (hdr ▸ hd))
    · rw [hr] at hu
      by_cases hut : u = t
      · subst hut
        rw [Function.update_self, Option.some.injEq] at hu
        exact hk (h.draining (hre tunnels true hu).symm)
      · rw [Function.update_of_ne hut] at hu
        exact hk (h.flagged u tunnels hu)
  | @drop t _ _ hdr ha hr =>
    refine ⟨fun hb => ?_, fun hd => ?_, fun u tunnels hu => ?_⟩
    · exact hk (h.beginning (ha ▸ hb))
    · exact hk (h.draining (hdr ▸ hd))
    · rw [hr] at hu
      by_cases hut : u = t
      · subst hut
        simp at hu
      · rw [Function.update_of_ne hut] at hu
        exact hk (h.flagged u tunnels hu)

/-- A Server that has just started. -/
def start (serverHostname : ServerHostname) (generation : ServerRuntimeGeneration)
    (visitors : RoutedVisitors) : ReportingServer :=
  { serverHostname, generation, visitors }

theorem SealedFirst.reaches {serverHostname : ServerHostname} {generation : ServerRuntimeGeneration}
    {visitors : RoutedVisitors} (hr : system.Reaches (start serverHostname generation visitors) s) :
    s.SealedFirst := by
  refine hr.invariant (I := SealedFirst) (fun _ _ _ h _ hs => h.move (move_of_step hs)) ?_
  exact ⟨by simp [start], by simp [start], by simp [start]⟩

/-- No Visitor work has a record, and none has been registered since `n` was the next
stream ID. -/
def IdleSince (n : Nat) (s : ReportingServer) : Prop :=
  s.visitors.registry.visitorWork.isSealed = true ∧
    s.visitors.registry.visitorWork.work = [] ∧ s.visitors.registry.nextStreamId = n

theorem IdleSince.reaches {n : Nat} (h : IdleSince n s) (hr : system.Reaches s s') :
    IdleSince n s' := by
  refine hr.invariant (I := IdleSince n) ?_ h
  rintro t _ t' ⟨hs, he, hid⟩ _ hst
  have hk := (move_of_step hst).keepsSeal
  obtain ⟨he', hid'⟩ := hk.empty hs he
  exact ⟨hk.isSealed hs, he', hid'.trans hid⟩

/-- What the step that renders a document has found. -/
theorem of_rendered {t : Nat} {session : ServerTunnel → Bool} {fields : ServerStateFields}
    (h : system.step s (.pollRender t session) = some s')
    (hf : s'.renders t = some (.rendered fields)) :
    (∃ tunnels, s.renders t = some (.flagged tunnels fields.draining)) ∧
      fields.visitors = s'.visitors.registry.inFlightVisitorCount := by
  change s.pollRender t session = some s' at h
  unfold pollRender at h
  split at h
  · cases h
  · obtain ⟨lock, -, rfl⟩ := Option.map_eq_some_iff.mp h
    simp [setRender] at hf
  · cases h
    simp [setRender] at hf
  · cases h
    simp [setRender] at hf
  · cases h
    simp [setRender] at hf
  · next tunnels draining hr =>
    cases h
    simp only [setRender, Function.update_self, Option.some.injEq, RenderTask.rendered.injEq]
      at hf
    subst hf
    exact ⟨⟨tunnels, hr⟩, rfl⟩
  · cases h

/-- In every run of a Managed Server, when a state document is rendered with `draining`
set and no Visitors, there is no record of Visitor work, and there is none in any state
from then on: no Visitor is ever registered again. -/
theorem reported_drain_quiescent (serverHostname : ServerHostname)
    (generation : ServerRuntimeGeneration) (visitors : RoutedVisitors) (s s' : ReportingServer)
    (t : Nat) (session : ServerTunnel → Bool) (fields : ServerStateFields)
    (hrun : system.Reaches (start serverHostname generation visitors) s)
    (hstep : system.step s (.pollRender t session) = some s')
    (hfields : s'.renders t = some (.rendered fields))
    (hdraining : fields.draining = true) (hvisitors : fields.visitors = 0) :
    s'.visitors.registry.visitorWork.work = [] ∧
      ∀ s'', system.Reaches s' s'' → s''.visitors.registry.visitorWork.work = [] ∧
        s''.visitors.registry.nextStreamId = s'.visitors.registry.nextStreamId := by
  obtain ⟨⟨tunnels, hf⟩, hc⟩ := of_rendered hstep hfields
  rw [hdraining] at hf
  have hs := (move_of_step hstep).keepsSeal.isSealed
    ((SealedFirst.reaches hrun).flagged t tunnels hf)
  have he : s'.visitors.registry.visitorWork.work = [] :=
    List.length_eq_zero_iff.mp (hc.symm.trans hvisitors)
  refine ⟨he, fun s'' hl => ?_⟩
  have hi : IdleSince s'.visitors.registry.nextStreamId s'' :=
    IdleSince.reaches ⟨hs, he, rfl⟩ hl
  exact hi.2

/-- A Visitor of Tunnel `a` has been routed when an apply starts a drain. -/
def drainWithVisitor : List Action :=
  .apply ⟨[sampleTunnel "a" [sampleIdentity 1]], none, false⟩ ::
    (List.replicate 7 .pollApply ++
      (TunnelRegistry.registerFor (sampleIdentity 1) 0).map (fun a => .visitors (.registry a)) ++
      (RoutedVisitors.routeVisitor 0).map .visitors ++
      .apply ⟨[sampleTunnel "a" [sampleIdentity 1]], none, true⟩ ::
        List.replicate 13 .pollApply)

/-- The document reports one Tunnel connection, the drain and no Visitors.  The routed
Visitor is refused afterwards. -/
theorem reported_drain_quiescent_with_routed_visitor :
    ∃ s s' s'' fields,
      system.Reaches (start ⟨"tunnel.example.test"⟩ ⟨0⟩ (.start .empty {} {})) s ∧
      system.step s (.pollRender 0 fun _ => true) = some s' ∧
      s'.renders 0 = some (.rendered fields) ∧ fields.draining = true ∧ fields.visitors = 0 ∧
      fields.tunnels.map Prod.snd = [1] ∧ s'.visitors.registry.visitorWork.work = [] ∧
      system.Reaches s' s'' ∧ s''.visitors.permits 0 = some .refused ∧
      s''.visitors.registry.nextStreamId = s'.visitors.registry.nextStreamId := by
  have hex : ∃ s ∈ system.exec (start ⟨"tunnel.example.test"⟩ ⟨0⟩ (.start .empty {} {}))
        (drainWithVisitor ++ .render :: List.replicate 4 (.pollRender 0 fun _ => true)),
      ∃ s' ∈ system.step s (.pollRender 0 fun _ => true),
        (∃ fields ∈ (s'.renders 0).bind fun task =>
            match task with
            | .rendered fields => some fields
            | _ => none,
          fields.draining = true ∧ fields.visitors = 0 ∧ fields.tunnels.map Prod.snd = [1]) ∧
        ∃ s'' ∈ system.exec s' [.visitors (.tryAdmit 0), .visitors (.pollVisitor 0)],
          s''.visitors.permits 0 = some .refused := by
    decide
  obtain ⟨s, hs, s', hs', ⟨fields, hf, hd, hv, ht⟩, s'', hs'', hre⟩ :=
    hex
  have hr : s'.renders 0 = some (.rendered fields) := by
    obtain ⟨task, hta, hm⟩ := Option.bind_eq_some_iff.mp hf
    split at hm
    · cases hm
      exact hta
    · cases hm
  have hru := Lts.Reaches.of_exec hs
  have hl := Lts.Reaches.of_exec hs''
  obtain ⟨he, hi⟩ := reported_drain_quiescent _ _ _ s s' 0 _ fields hru hs' hr
    hd hv
  exact ⟨s, s', s'', fields, hru, hs', hr, hd, hv, ht, he, hl,
    hre, (hi s'' hl).2⟩

end ReportingServer

end Runewarp.Server
