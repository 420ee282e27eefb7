import Runewarp.Server.Accounting
import Runewarp.Server.RoutedVisitors
import Runewarp.Server.VisitorWork

/-!
# What routed Visitors do to the registry

The steps of the registry other than those of a Visitor leave the Visitors and their work as
they are counted (`SameVisitors`).  What a step of `RoutedVisitors` does to the registry is a
step of the registry, the cancellation of a replacement, or a part of the end of a piece of
work (`RegistryMove`).
-/

namespace Runewarp.Server

namespace TunnelRegistry

/-- The Visitors and their work as they are counted. -/
def visitorsView (s : TunnelRegistry) :=
  (s.visitors, s.nextVisitor, s.visitorWork.pendingAdmissions,
    s.visitorWork.work.map fun stream => stream.streamId, s.nextStreamId, s.activeStreams)

/-- What every step that is not one of a Visitor leaves as it is. -/
structure SameVisitors (s s' : TunnelRegistry) : Prop where
  view : s'.visitorsView = s.visitorsView
  nextCounter : s.nextCounter ≤ s'.nextCounter
  isSealed : s.visitorWork.isSealed = true → s'.visitorWork.isSealed = true

/-- Whether an action is a step of a Visitor. -/
def Action.isVisitor : Action → Bool
  | .visitor _ | .pollVisitor _ | .dropVisitor _ => true
  | _ => false

variable {s s' : TunnelRegistry} {a : Action}

theorem sameVisitors_replaceStep (h : ReplaceStep s s') : SameVisitors s s' := by
  cases h with
  | reset hr =>
    refine ⟨?_, le_rfl, id⟩
    simp only [visitorsView, map_streamId_resetStreamsMatching]
  | _ => exact ⟨rfl, le_rfl, id⟩

theorem sameVisitors_of_step (ha : a.isVisitor = false) (h : system.step s a = some s') :
    SameVisitors s s' := by
  cases a with
  | visitor | pollVisitor | dropVisitor => cases ha
  | register c =>
    obtain ⟨_, _, _, heq⟩ := frame_startRegister s c
    cases h
    exact heq ▸ ⟨rfl, le_rfl, id⟩
  | pollRegister t =>
    obtain ⟨_, _, _, _, _, _, _, _, hle, rfl⟩ := frame_pollRegister h
    exact ⟨rfl, hle, id⟩
  | replaceAuthorization serverHostname tunnels =>
    obtain ⟨-, rfl | ⟨snapshot, rfl⟩⟩ := startReplace_eq_some h
    · exact ⟨rfl, le_rfl, id⟩
    · exact ⟨rfl, le_rfl, id⟩
  | pollReplace => exact sameVisitors_replaceStep (replaceStep_of_pollReplace h)
  | runWatcher w =>
    obtain ⟨_, _, _, rfl⟩ := frame_runWatcher h
    exact ⟨rfl, le_rfl, id⟩
  | runRelease c permit =>
    obtain ⟨-, ⟨⟩⟩ := Option.ite_some_none_eq_some.mp h
    exact ⟨rfl, le_rfl, id⟩
  | pollCall t =>
    obtain ⟨_, _, _, -, rfl⟩ := frame_pollCall h
    exact ⟨rfl, le_rfl, id⟩
  | pollShutdown t c =>
    obtain ⟨_, _, _, _, -, rfl⟩ := frame_pollShutdown h
    exact ⟨rfl, le_rfl, id⟩
  | stopAcceptingNewWork =>
    cases h
    exact ⟨rfl, le_rfl, fun _ => rfl⟩
  | _ =>
    cases h
    exact ⟨rfl, le_rfl, id⟩

end TunnelRegistry

namespace RoutedVisitors

/-- What a step does to the registry: a step of its own, the cancellation of a
replacement, or a part of the end of a piece of work. -/
inductive RegistryMove (r : TunnelRegistry) : TunnelRegistry → Prop where
  | step {r' : TunnelRegistry} : TunnelRegistry.system.step r b = some r' → RegistryMove r r'
  | cancel {r' : TunnelRegistry} : r.dropReplace = some r' → RegistryMove r r'
  | same : RegistryMove r r
  | dropLoad {work : ActiveVisitorWork} : RegistryMove r (r.dropLoad work)
  | removeRecord {work : ActiveVisitorWork} :
      (r.visitors t).bind VisitorTask.work = some work → RegistryMove r (r.removeRecord t work)

variable {s s' : RoutedVisitors} {t : Nat} {r : TunnelRegistry}

theorem registryMove_of_pollVisitor (h : s.pollVisitor t = some s') :
    RegistryMove s.registry s'.registry := by
  have hs : ((s.registry.pollVisitor t).map fun registry =>
      if (registry.visitors t).any VisitorTask.pending then { s with registry }
      else { s with registry, notifies := s.notifies + 1 }) = some s' →
      RegistryMove s.registry s'.registry := by
    intro hm
    obtain ⟨registry', hp, rfl⟩ := Option.map_eq_some_iff.mp hm
    split <;> exact .step (b := .pollVisitor t) hp
  unfold pollVisitor at h
  split at h
  · exact hs h
  · exact hs h
  · exact hs h
  · next host route ht =>
    obtain ⟨-, h⟩ := Option.ite_none_right_eq_some.mp h
    have hp : s.registry.pollVisitor t =
        some (s.registry.registerActiveVisitorWork t host route) := by
      simp only [TunnelRegistry.pollVisitor, ht]
    cases h
    unfold register
    split
    · next hr =>
      have hd : s.registry.registerActiveVisitorWork t host route =
          s.registry.dropAdmission t := if_pos hr
      exact .step (b := .pollVisitor t) (hp.trans (congrArg some hd))
    · exact .step (b := .pollVisitor t) hp
  · next work ht =>
    obtain ⟨hgo, ⟨⟩⟩ := Option.ite_some_none_eq_some.mp h
    refine .step (b := .pollVisitor t) ?_
    change s.registry.pollVisitor t = _
    simp [TunnelRegistry.pollVisitor, ht, hgo.2]
  · cases h
  · cases h
  · cases h

theorem registryMove_of_step {a : Action} (h : system.step s a = some s') :
    RegistryMove s.registry s'.registry := by
  have hdr : ∀ {t task}, s.registry.visitors t = some task → s.permits t = none →
      s.dropVisitor t = some (s.dropAdmission t) →
      RegistryMove s.registry (s.registry.dropAdmission t) := by
    intro t task ht hp hd
    refine .step (b := .dropVisitor t) ?_
    change s.registry.dropVisitor t = _
    cases task <;> simp_all [dropVisitor, TunnelRegistry.dropVisitor]
  cases a with
  | registry b =>
    obtain ⟨-, h⟩ := Option.ite_none_left_eq_some.mp h
    obtain ⟨registry', hst, rfl⟩ := Option.map_eq_some_iff.mp h
    exact .step hst
  | dropReplace =>
    obtain ⟨registry', hc, rfl⟩ := Option.map_eq_some_iff.mp h
    exact .cancel hc
  | tryAdmit t =>
    change s.tryAdmit t = some s' at h
    unfold tryAdmit at h
    split at h
    · next ht hp =>
      split at h
      · cases h
        exact .same
      · cases h
        exact hdr ht hp (by simp [dropVisitor, ht, hp])
    · cases h
  | pollVisitor t => exact registryMove_of_pollVisitor h
  | dropVisitor t =>
    have hs := h
    change s.dropVisitor t = some s' at h
    unfold dropVisitor at h
    split at h
    · next ht hp =>
      cases h
      exact hdr ht hp hs
    · next ht hp =>
      cases h
      exact hdr ht hp hs
    · next ht hp =>
      cases h
      exact hdr ht hp hs
    · cases h
  | dropRefused t =>
    obtain ⟨-, ⟨⟩⟩ := Option.ite_some_none_eq_some.mp h
    exact .same
  | endWork t =>
    change s.endWork t = some s' at h
    unfold endWork at h
    split at h <;> cases h
    exact .same
  | dropLoad t =>
    change s.dropLoad t = some s' at h
    unfold dropLoad at h
    split at h <;> cases h
    exact .dropLoad
  | removeRecord t =>
    change s.removeRecord t = some s' at h
    unfold removeRecord at h
    split at h
    · next ht _ =>
      cases h
      exact .removeRecord ht
    · cases h
  | notifyWaiters =>
    obtain ⟨-, ⟨⟩⟩ := Option.ite_some_none_eq_some.mp h
    exact .same
  | waitQuiescent =>
    cases h
    exact .same
  | pollWait w =>
    change s.pollWait w = some s' at h
    unfold pollWait at h
    split at h
    · split at h <;> cases h <;> exact .same
    · cases h
      exact .same
    · cases h
    · cases h
    · cases h

/-- A Visitor of Tunnel `a` is routed. -/
def routeVisitor (t : Nat) : List Action :=
  .registry (.visitor ⟨"a.example.test"⟩) :: List.replicate 3 (.pollVisitor t)

end RoutedVisitors

end Runewarp.Server
