import Runewarp.FdCapacity
import Runewarp.Lib.Semaphore
import Runewarp.ProxyProtocol
import Runewarp.Server.Admission

/-!
# Visitor admission

A Visitor holds one of three permits, each of a semaphore of its own: one for the work
before it is routed, one while its stream is being opened, and one while it is proxied.
None of them is waited for.  The first is also counted against the source of the
Visitor, once that is known.
-/

namespace Runewarp.Server

/-- The Visitor limits of `ServerAdmissionLimits`. -/
structure VisitorLimits where
  maxPendingVisitors : Nat := 4096
  maxPendingVisitorsPerSource : Nat := 256
  maxPendingStreamOpens : Nat := 4096
  maxActiveRoutedStreams : Nat := 65536

namespace VisitorLimits

/-- The capacities that have to fit into the descriptors. -/
def capacities (l : VisitorLimits) : Fin 3 → Nat :=
  ![l.maxPendingVisitors, l.maxPendingStreamOpens, l.maxActiveRoutedStreams]

/-- What `bind_with_proxy_and_certificate` makes of the limits, with the descriptor limit
of the process. -/
def fitted (l : VisitorLimits) (nofile : Option Nat) : VisitorLimits :=
  let effective := FdCapacity.applyServer l.capacities nofile FdCapacity.fdReserve
  { l with
    maxPendingVisitors := effective FdCapacity.pendingVisitors
    maxPendingStreamOpens := effective FdCapacity.pendingStreamOpens
    maxActiveRoutedStreams := effective FdCapacity.activeRoutedStreams }

end VisitorLimits

/-- The Visitor part of `ServerAdmissionPolicy`. -/
structure VisitorAdmission where
  limits : VisitorLimits
  pendingVisitors : Semaphore Unit
  pendingVisitorsBySource : HashMap IpAddr Nat := ∅
  pendingStreamOpens : Semaphore Unit
  activeRoutedStreams : Semaphore Unit

/-- `VisitorAdmissionPermit`: the source it is counted against. -/
structure VisitorAdmissionPermit where
  source : Option IpAddr := none
deriving DecidableEq

namespace VisitorAdmission

/-- `ServerAdmissionPolicy::new`. -/
def new (limits : VisitorLimits) : VisitorAdmission where
  limits := limits
  pendingVisitors := { permits := limits.maxPendingVisitors }
  pendingStreamOpens := { permits := limits.maxPendingStreamOpens }
  activeRoutedStreams := { permits := limits.maxActiveRoutedStreams }

/-- `try_acquire_owned` on one of the semaphores, and the rejection when there is no
permit. -/
def tryAdmit (semaphore : Semaphore Unit) (limit : AdmissionLimit) (maximum : Nat) :
    Except AdmissionRejection (Semaphore Unit) :=
  match semaphore.tryAcquire with
  | some semaphore => .ok semaphore
  | none => .error ⟨limit, maximum - semaphore.permits⟩

def tryAdmitVisitorGlobal (a : VisitorAdmission) :
    Except AdmissionRejection (VisitorAdmissionPermit × VisitorAdmission) :=
  (tryAdmit a.pendingVisitors .visitorsGlobal a.limits.maxPendingVisitors).map
    fun semaphore => ({}, { a with pendingVisitors := semaphore })

def tryAdmitPendingStreamOpen (a : VisitorAdmission) :
    Except AdmissionRejection VisitorAdmission :=
  (tryAdmit a.pendingStreamOpens .pendingStreamOpens a.limits.maxPendingStreamOpens).map
    fun semaphore => { a with pendingStreamOpens := semaphore }

def tryAdmitActiveRoutedStream (a : VisitorAdmission) :
    Except AdmissionRejection VisitorAdmission :=
  (tryAdmit a.activeRoutedStreams .activeRoutedStreams a.limits.maxActiveRoutedStreams).map
    fun semaphore => { a with activeRoutedStreams := semaphore }

/-- The count of a source goes down by one; an entry that comes to zero is removed. -/
def removeSource (sources : HashMap IpAddr Nat) (source : IpAddr) : HashMap IpAddr Nat :=
  match sources.lookup source with
  | none => sources
  | some n => if n - 1 = 0 then sources.erase source else sources.insert source (n - 1)

def useCanonicalSource (a : VisitorAdmission) (permit : VisitorAdmissionPermit)
    (source : IpAddr) (maximum : Nat) :
    Except AdmissionRejection (VisitorAdmissionPermit × VisitorAdmission) :=
  if some source = permit.source then .ok (permit, a)
  else
    let active := (a.pendingVisitorsBySource.lookup source).getD 0
    if maximum ≤ active then .error ⟨.visitorSource, active⟩
    else
      let sources := match permit.source with
        | some previous => removeSource a.pendingVisitorsBySource previous
        | none => a.pendingVisitorsBySource
      .ok (⟨some source⟩,
        { a with
          pendingVisitorsBySource := sources.insert source ((sources.lookup source).getD 0 + 1) })

/-- `Drop for VisitorAdmissionPermit`, and the drop of its permit. -/
def dropVisitor (a : VisitorAdmission) (permit : VisitorAdmissionPermit) : VisitorAdmission :=
  { a with
    pendingVisitors := a.pendingVisitors.release
    pendingVisitorsBySource := match permit.source with
      | some source => removeSource a.pendingVisitorsBySource source
      | none => a.pendingVisitorsBySource }

def dropPendingStreamOpen (a : VisitorAdmission) : VisitorAdmission :=
  { a with pendingStreamOpens := a.pendingStreamOpens.release }

def dropActiveRoutedStream (a : VisitorAdmission) : VisitorAdmission :=
  { a with activeRoutedStreams := a.activeRoutedStreams.release }

/-! ## What is taken -/

variable {a a' : VisitorAdmission} {permit permit' : VisitorAdmissionPermit}

theorem tryAdmit_eq_ok {semaphore semaphore' : Semaphore Unit} {limit : AdmissionLimit}
    {maximum : Nat} (h : tryAdmit semaphore limit maximum = .ok semaphore') :
    semaphore'.stock + 1 = semaphore.stock := by
  unfold tryAdmit at h
  split at h
  next ha =>
    cases h
    exact Semaphore.stock_tryAcquire ha
  next => cases h

theorem tryAdmitVisitorGlobal_eq_ok (h : a.tryAdmitVisitorGlobal = .ok (permit, a')) :
    ∃ semaphore, a' = { a with pendingVisitors := semaphore } ∧
      semaphore.stock + 1 = a.pendingVisitors.stock := by
  obtain ⟨semaphore, hs, heq⟩ := map_ok h
  cases heq
  exact ⟨semaphore, rfl, tryAdmit_eq_ok hs⟩

theorem tryAdmitPendingStreamOpen_eq_ok (h : a.tryAdmitPendingStreamOpen = .ok a') :
    ∃ semaphore, a' = { a with pendingStreamOpens := semaphore } ∧
      semaphore.stock + 1 = a.pendingStreamOpens.stock := by
  obtain ⟨semaphore, hs, heq⟩ := map_ok h
  exact ⟨semaphore, heq.symm, tryAdmit_eq_ok hs⟩

theorem tryAdmitActiveRoutedStream_eq_ok (h : a.tryAdmitActiveRoutedStream = .ok a') :
    ∃ semaphore, a' = { a with activeRoutedStreams := semaphore } ∧
      semaphore.stock + 1 = a.activeRoutedStreams.stock := by
  obtain ⟨semaphore, hs, heq⟩ := map_ok h
  exact ⟨semaphore, heq.symm, tryAdmit_eq_ok hs⟩

/-- The count by source is apart from the semaphores. -/
theorem useCanonicalSource_eq_ok {source : IpAddr} {maximum : Nat}
    (h : a.useCanonicalSource permit source maximum = .ok (permit', a')) :
    ∃ sources, a' = { a with pendingVisitorsBySource := sources } := by
  unfold useCanonicalSource at h
  split at h
  next =>
    cases h
    exact ⟨_, rfl⟩
  next =>
    simp only at h
    split at h
    next => cases h
    next =>
      cases h
      exact ⟨_, rfl⟩

end VisitorAdmission

end Runewarp.Server
