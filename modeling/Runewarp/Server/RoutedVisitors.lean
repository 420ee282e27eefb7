import Runewarp.Server.TunnelRegistry
import Runewarp.Server.VisitorAdmission

/-!
# Routed Visitors and what they hold

A routed Visitor holds a pending admission of the registry.  `forward_to_tunnel` takes
an active-routed-stream permit for it and hands both to `register_active_visitor_work`,
which consumes the admission in any case.  When it refuses, its argument, the permit, is
dropped after the lock of the work table; when it accepts, the permit goes into the
`ActiveVisitorWork` together with the load on the member.

`TunnelRegistry` ends a piece of work in one step.  Here `Drop for ActiveVisitorWork`
takes three: the permit, the load, the record.  Other threads see what is between, and
`wait_quiescent`, which looks at the work table only, relies on the order.

A call of `wait_quiescent` enables its `Notified` before it looks.  `notify_waiters` is
called after the lock has been released, so a change and its notification are two steps.
-/

namespace Runewarp.Server

/-- The work a Visitor has been registered for. -/
def VisitorTask.work : VisitorTask → Option ActiveVisitorWork
  | .registered work => some work
  | .proxying work => some work
  | .awaitPools _ | .readPools _ | .select _ _ _ | .routed _ _ | .finished => none

/-- The Visitor has an `ActiveVisitorAdmission` that is pending. -/
def VisitorTask.pending : VisitorTask → Bool
  | .awaitPools _ | .readPools _ | .select _ _ _ | .routed _ _ => true
  | .registered _ | .proxying _ | .finished => false

namespace TunnelRegistry

/-- The drop of an `ActiveStreamGuard`. -/
def dropLoad (s : TunnelRegistry) (work : ActiveVisitorWork) : TunnelRegistry :=
  let counter := work.route.connection.activeStreams
  { s with activeStreams := Function.update s.activeStreams counter (s.activeStreams counter - 1) }

/-- The last part of `Drop for ActiveVisitorWork`. -/
def removeRecord (s : TunnelRegistry) (t : Nat) (work : ActiveVisitorWork) : TunnelRegistry :=
  { s with
    visitorWork := { s.visitorWork with
      work := s.visitorWork.work.filter
        fun stream => decide (stream.streamId ≠ work.streamId) } }.setVisitor t .finished

/-- What `wait_quiescent` looks at. -/
def isQuiescent (s : TunnelRegistry) : Bool :=
  s.visitorWork.work.isEmpty && s.visitorWork.pendingAdmissions == 0

end TunnelRegistry

/-- Who owns an active-routed-stream permit. -/
inductive PermitOwner where
  /-- `forward_to_tunnel`. -/
  | forwarding
  /-- A call of `register_active_visitor_work` that has refused. -/
  | refused
  /-- The `ActiveVisitorWork`. -/
  | work
deriving DecidableEq

/-- What `Drop for ActiveVisitorWork` drops next, after the permit. -/
inductive WorkDrop where
  | load
  | record
deriving DecidableEq

/-- A call of `wait_quiescent`. -/
inductive WaitTask where
  /-- The `Notified` is enabled. -/
  | enabled (notified : Bool)
  | awaiting (notified : Bool)
  | returned
deriving DecidableEq

def WaitTask.notify : WaitTask → WaitTask
  | .enabled _ => .enabled true
  | .awaiting _ => .awaiting true
  | .returned => .returned

/-- The registry, and what its Visitors hold besides. -/
structure RoutedVisitors where
  registry : TunnelRegistry
  admission : VisitorAdmission
  /-- The permit of each Visitor. -/
  permits : Nat → Option PermitOwner := fun _ => none
  /-- The work that is being dropped. -/
  drops : Nat → Option WorkDrop := fun _ => none
  waits : Nat → Option WaitTask := fun _ => none
  nextWait : Nat := 0
  /-- The calls of `quiescent.notify_waiters` that are due. -/
  notifies : Nat := 0
  /-- The Visitors that have been given a permit, one entry per permit. -/
  acquired : List Nat := []
  /-- The Visitors whose permit has been dropped, one entry per drop. -/
  released : List Nat := []

namespace RoutedVisitors

def start (snapshot : ManagedSnapshot) (limits : ServerAdmissionLimits)
    (visitorLimits : VisitorLimits) : RoutedVisitors where
  registry := .fromAuthorizationWithAdmission snapshot limits
  admission := .new visitorLimits

def setPermit (s : RoutedVisitors) (t : Nat) (owner : PermitOwner) : RoutedVisitors :=
  { s with permits := Function.update s.permits t (some owner) }

/-- The drop of a permit. -/
def releasePermit (s : RoutedVisitors) (t : Nat) : RoutedVisitors :=
  { s with
    admission := s.admission.dropActiveRoutedStream
    permits := Function.update s.permits t none
    released := s.released ++ [t] }

/-- `Drop for ActiveVisitorAdmission`, up to its notification. -/
def dropAdmission (s : RoutedVisitors) (t : Nat) : RoutedVisitors :=
  { s with registry := s.registry.dropAdmission t, notifies := s.notifies + 1 }

/-- `try_admit_active_routed_stream` in `forward_to_tunnel`. -/
def tryAdmit (s : RoutedVisitors) (t : Nat) : Option RoutedVisitors :=
  match s.registry.visitors t, s.permits t with
  | some (.routed _ _), none =>
    match s.admission.tryAdmitActiveRoutedStream with
    | .ok admission =>
      some ({ s with admission, acquired := s.acquired ++ [t] }.setPermit t .forwarding)
    | .error _ => some (s.dropAdmission t)
  | _, _ => none

/-- `register_active_visitor_work`. -/
def register (s : RoutedVisitors) (t : Nat) (h : PublicHostname) (route : VisitorRoute) :
    RoutedVisitors :=
  if s.registry.visitorWork.isSealed || !s.registry.remainsCurrentAndAuthorized h route then
    (s.dropAdmission t).setPermit t .refused
  else
    { s with registry := s.registry.registerActiveVisitorWork t h route }.setPermit t .work

/-- One step of a Visitor that is not about to end. -/
def pollVisitor (s : RoutedVisitors) (t : Nat) : Option RoutedVisitors :=
  match s.registry.visitors t with
  | some (.awaitPools _) | some (.readPools _) | some (.select _ _ _) =>
    (s.registry.pollVisitor t).map fun registry =>
      -- A search that fails drops the admission.
      if (registry.visitors t).any VisitorTask.pending then { s with registry }
      else { s with registry, notifies := s.notifies + 1 }
  | some (.routed h route) =>
    if s.permits t = some .forwarding then some (s.register t h route) else none
  | some (.registered work) =>
    if s.drops t = none ∧ ¬ s.registry.aborted work.streamId then
      some { s with registry := s.registry.setVisitor t (.proxying work) }
    else none
  | some (.proxying _) | some .finished | none => none

/-- A Visitor dropped at an await before registration, or a stream that does not open. -/
def dropVisitor (s : RoutedVisitors) (t : Nat) : Option RoutedVisitors :=
  match s.registry.visitors t, s.permits t with
  | some (.awaitPools _), none | some (.select _ _ _), none | some (.routed _ _), none =>
    some (s.dropAdmission t)
  | _, _ => none

/-- A call of `register_active_visitor_work` that refused drops its permit. -/
def dropRefused (s : RoutedVisitors) (t : Nat) : Option RoutedVisitors :=
  if s.permits t = some .refused then some (s.releasePermit t) else none

/-- The work is done, aborted or dropped: the first part of `Drop for
ActiveVisitorWork`. -/
def endWork (s : RoutedVisitors) (t : Nat) : Option RoutedVisitors :=
  match (s.registry.visitors t).bind VisitorTask.work, s.drops t with
  | some _, none =>
    some { s.releasePermit t with drops := Function.update s.drops t (some .load) }
  | _, _ => none

def dropLoad (s : RoutedVisitors) (t : Nat) : Option RoutedVisitors :=
  match (s.registry.visitors t).bind VisitorTask.work, s.drops t with
  | some work, some .load =>
    some { s with
      registry := s.registry.dropLoad work
      drops := Function.update s.drops t (some .record) }
  | _, _ => none

def removeRecord (s : RoutedVisitors) (t : Nat) : Option RoutedVisitors :=
  match (s.registry.visitors t).bind VisitorTask.work, s.drops t with
  | some work, some .record =>
    let removed := s.registry.visitorWork.work.any
      fun stream => decide (stream.streamId = work.streamId)
    some { s with
      registry := s.registry.removeRecord t work
      drops := Function.update s.drops t none
      notifies := if removed then s.notifies + 1 else s.notifies }
  | _, _ => none

/-- `quiescent.notify_waiters`. -/
def notifyWaiters (s : RoutedVisitors) : Option RoutedVisitors :=
  if 0 < s.notifies then
    some { s with
      notifies := s.notifies - 1
      waits := fun w => (s.waits w).map WaitTask.notify }
  else none

def setWait (s : RoutedVisitors) (w : Nat) (task : WaitTask) : RoutedVisitors :=
  { s with waits := Function.update s.waits w (some task) }

/-- A call of `wait_quiescent`. -/
def waitQuiescent (s : RoutedVisitors) : RoutedVisitors :=
  { s with nextWait := s.nextWait + 1 }.setWait s.nextWait (.enabled false)

def pollWait (s : RoutedVisitors) (w : Nat) : Option RoutedVisitors :=
  match s.waits w with
  | some (.enabled notified) =>
    if s.registry.isQuiescent then some (s.setWait w .returned)
    else some (s.setWait w (.awaiting notified))
  | some (.awaiting true) => some (s.setWait w (.enabled false))
  | some (.awaiting false) | some .returned | none => none

inductive Action where
  /-- A step of the registry that is not a poll or a drop of a Visitor. -/
  | registry (action : TunnelRegistry.Action)
  /-- The future of `replace_authorization` is dropped. -/
  | dropReplace
  | tryAdmit (t : Nat)
  | pollVisitor (t : Nat)
  | dropVisitor (t : Nat)
  | dropRefused (t : Nat)
  | endWork (t : Nat)
  | dropLoad (t : Nat)
  | removeRecord (t : Nat)
  | notifyWaiters
  | waitQuiescent
  | pollWait (w : Nat)

end RoutedVisitors

/-- Whether an action polls or drops a Visitor. -/
def TunnelRegistry.Action.pollsVisitor : TunnelRegistry.Action → Bool
  | .pollVisitor _ | .dropVisitor _ => true
  | _ => false

namespace RoutedVisitors

def system : Lts RoutedVisitors Action where
  step s
    | .registry a =>
      if a.pollsVisitor then none
      else (TunnelRegistry.system.step s.registry a).map fun registry => { s with registry }
    | .dropReplace => s.registry.dropReplace.map fun registry => { s with registry }
    | .tryAdmit t => s.tryAdmit t
    | .pollVisitor t => s.pollVisitor t
    | .dropVisitor t => s.dropVisitor t
    | .dropRefused t => s.dropRefused t
    | .endWork t => s.endWork t
    | .dropLoad t => s.dropLoad t
    | .removeRecord t => s.removeRecord t
    | .notifyWaiters => s.notifyWaiters
    | .waitQuiescent => some s.waitQuiescent
    | .pollWait w => s.pollWait w

end RoutedVisitors

end Runewarp.Server
