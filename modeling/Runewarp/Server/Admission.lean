import Runewarp.Basic

/-!
# Tunnel-connection admission

One `TunnelConnectionAdmission` is shared by every pool of a registry.  It
counts the active Tunnel connections, globally and for each Client identity,
and hands out a permit for each of them.

A permit is an owned value: it is released when its owner drops it.  Permits
are named by a number, and `live` lists those that have not been dropped.  The
source keeps the counters only; `live` is what ownership says about them.
-/

namespace Runewarp.Server

/-- The Tunnel-connection limits of `ServerAdmissionLimits`. -/
structure ServerAdmissionLimits where
  maxTunnelConnections : Nat := 4096
  maxTunnelConnectionsPerTunnel : Nat := 256
  maxTunnelConnectionsPerIdentity : Nat := 64

inductive AdmissionLimit where
  | visitorsGlobal
  | visitorSource
  | handshakes
  | pendingStreamOpens
  | activeRoutedStreams
  | tunnelConnectionsGlobal
  | tunnelConnectionsPerTunnel
  | tunnelConnectionsPerIdentity
deriving DecidableEq

/-- `AdmissionRejection`: the limit that was met and the work counted against it. -/
structure AdmissionRejection where
  limit : AdmissionLimit
  activeWork : Nat
deriving DecidableEq

structure TunnelConnectionPermit where
  /-- Names the permit. -/
  id : Nat
  clientIdentity : ClientIdentity
deriving DecidableEq

/-- `TunnelConnectionAdmission` with the state its handles share. -/
structure TunnelConnectionAdmission where
  limits : ServerAdmissionLimits
  active : Nat := 0
  activeByIdentity : HashMap ClientIdentity Nat := ∅
  /-- The permits that have not been dropped. -/
  live : List TunnelConnectionPermit := []
  /-- The name of the next permit. -/
  nextPermit : Nat := 0

namespace TunnelConnectionAdmission

def maxPerTunnel (a : TunnelConnectionAdmission) : Nat := a.limits.maxTunnelConnectionsPerTunnel

def tryAcquire (a : TunnelConnectionAdmission) (c : ClientIdentity) :
    Except AdmissionRejection (TunnelConnectionPermit × TunnelConnectionAdmission) :=
  if a.limits.maxTunnelConnections ≤ a.active then
    .error ⟨.tunnelConnectionsGlobal, a.active⟩
  else
    let identityActive := (a.activeByIdentity.lookup c).getD 0
    if a.limits.maxTunnelConnectionsPerIdentity ≤ identityActive then
      .error ⟨.tunnelConnectionsPerIdentity, identityActive⟩
    else
      let permit : TunnelConnectionPermit := ⟨a.nextPermit, c⟩
      .ok (permit,
        { a with
          active := a.active + 1
          activeByIdentity := a.activeByIdentity.insert c (identityActive + 1)
          live := permit :: a.live
          nextPermit := a.nextPermit + 1 })

/-- `Drop for TunnelConnectionPermit`. -/
def release (a : TunnelConnectionAdmission) (permit : TunnelConnectionPermit) :
    TunnelConnectionAdmission :=
  let a := { a with active := a.active - 1, live := a.live.erase permit }
  match a.activeByIdentity.lookup permit.clientIdentity with
  | none => a
  | some n =>
    { a with
      activeByIdentity :=
        if n - 1 = 0 then a.activeByIdentity.erase permit.clientIdentity
        else a.activeByIdentity.insert permit.clientIdentity (n - 1) }

/-- Drop several permits in order. -/
def releaseAll (a : TunnelConnectionAdmission) (permits : List TunnelConnectionPermit) :
    TunnelConnectionAdmission :=
  permits.foldl release a

@[simp] theorem release_live (a : TunnelConnectionAdmission) (permit : TunnelConnectionPermit) :
    (a.release permit).live = a.live.erase permit := by
  unfold release
  dsimp only
  split <;> rfl

@[simp] theorem release_nextPermit (a : TunnelConnectionAdmission)
    (permit : TunnelConnectionPermit) : (a.release permit).nextPermit = a.nextPermit := by
  unfold release
  dsimp only
  split <;> rfl

theorem live_releaseAll_subset :
    ∀ (permits : List TunnelConnectionPermit) (a : TunnelConnectionAdmission),
      (a.releaseAll permits).live ⊆ a.live
  | [], a => List.Subset.refl _
  | permit :: permits, a => by
      have hr := live_releaseAll_subset permits (a.release permit)
      rw [release_live] at hr
      exact List.Subset.trans hr List.erase_subset

@[simp] theorem releaseAll_nextPermit :
    ∀ (permits : List TunnelConnectionPermit) (a : TunnelConnectionAdmission),
      (a.releaseAll permits).nextPermit = a.nextPermit
  | [], _ => rfl
  | permit :: permits, a => by
      rw [← release_nextPermit a permit]
      exact releaseAll_nextPermit permits (a.release permit)

theorem mem_live_releaseAll {permit : TunnelConnectionPermit} :
    ∀ {permits : List TunnelConnectionPermit} {a : TunnelConnectionAdmission},
      permit ∈ a.live → permit ∉ permits → permit ∈ (a.releaseAll permits).live
  | [], _, h, _ => h
  | dropped :: permits, a, h, hn => by
      rw [List.mem_cons, not_or] at hn
      have hk : permit ∈ (a.release dropped).live := by
        rw [release_live]
        exact (List.mem_erase_of_ne hn.1).mpr h
      exact mem_live_releaseAll (a := a.release dropped) hk hn.2

theorem nodup_live_releaseAll :
    ∀ (permits : List TunnelConnectionPermit) {a : TunnelConnectionAdmission},
      a.live.Nodup → (a.releaseAll permits).live.Nodup
  | [], _, h => h
  | permit :: permits, a, h => by
      have hk : (a.release permit).live.Nodup := by
        rw [release_live]
        exact h.erase permit
      exact nodup_live_releaseAll permits hk

theorem notMem_live_releaseAll {permit : TunnelConnectionPermit} :
    ∀ {permits : List TunnelConnectionPermit} {a : TunnelConnectionAdmission},
      a.live.Nodup → permit ∈ permits → permit ∉ (a.releaseAll permits).live
  | dropped :: permits, a, h, hm => by
      have hr := live_releaseAll_subset permits (a.release dropped)
      rcases List.mem_cons.mp hm with rfl | hm
      · intro hl
        have hm' := hr hl
        rw [release_live] at hm'
        exact (h.mem_erase_iff.mp hm').1 rfl
      · refine notMem_live_releaseAll (a := a.release dropped) ?_ hm
        rw [release_live]
        exact h.erase dropped

theorem tryAcquire_live {a a' : TunnelConnectionAdmission} {c : ClientIdentity}
    {permit : TunnelConnectionPermit} (h : a.tryAcquire c = .ok (permit, a')) :
    a'.live = permit :: a.live ∧ permit.clientIdentity = c ∧ permit.id = a.nextPermit ∧
      a'.nextPermit = a.nextPermit + 1 := by
  unfold tryAcquire at h
  dsimp only at h
  split at h
  · cases h
  · split at h
    · cases h
    · cases h
      exact ⟨rfl, rfl, rfl, rfl⟩

end TunnelConnectionAdmission

end Runewarp.Server
