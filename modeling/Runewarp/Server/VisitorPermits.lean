import Runewarp.Lib.KeyCounts
import Runewarp.Lib.Lts
import Runewarp.Server.VisitorAdmission

/-!
# Permits of Visitors before they are routed

A `VisitorAdmissionPermit` holds one of the global permits and is counted against a source
once it has one; `use_canonical_source` may be called on it again with another source.  The
tasks that hold permits share the map of counts under a mutex.  A drop of a permit is two
steps: `drop` takes it off the map, and then its fields go, and with them the global
permit.

`useSource` is `use_canonical_source` with its writes in the order of the source and with
the state a failed call leaves, which `VisitorAdmission.useCanonicalSource` has not.
-/

namespace Runewarp.Server

open KeyCounts

/-- `use_canonical_source` on the permit and the map. -/
def useSource (source : IpAddr) (maximum : Nat) :
    ExceptT AdmissionRejection (StateM (VisitorAdmissionPermit × HashMap IpAddr Nat)) Unit := do
  let (permit, sources) ← get
  if some source = permit.source then return
  let active := (sources.lookup source).getD 0
  if maximum ≤ active then throw ⟨.visitorSource, active⟩
  if let some previousSource := permit.source then
    if let some previous := sources.lookup previousSource then
      set (permit, sources.insert previousSource (previous - 1))
      if previous - 1 = 0 then
        set (permit, (sources.insert previousSource (previous - 1)).erase previousSource)
  modify fun (permit, sources) =>
    (permit, sources.insert source ((sources.lookup source).getD 0 + 1))
  modify fun (_, sources) => (⟨some source⟩, sources)

/-- What the map has for a permit that had a source and gets another. -/
def reattribute (sources : HashMap IpAddr Nat) (previous : Option IpAddr) (source : IpAddr) :
    HashMap IpAddr Nat :=
  increment (match previous with
    | some previous => decrement sources previous
    | none => sources) source

theorem erase_insert_self {κ : Type} [DecidableEq κ] (m : HashMap κ Nat) (k : κ) (n : Nat) :
    (m.insert k n).erase k = m.erase k := by
  refine AList.ext ?_
  exact List.kerase_cons_eq (s := (⟨k, n⟩ : (_ : κ) × Nat)) rfl

theorem run_get_bind {σ ε α : Type} (f : σ → ExceptT ε (StateM σ) α) (s : σ) :
    (get >>= f : ExceptT ε (StateM σ) α).run s = (f s).run s := rfl

theorem useSource_run (permit : VisitorAdmissionPermit) (sources : HashMap IpAddr Nat)
    (source : IpAddr) (maximum : Nat) :
    (useSource source maximum).run (permit, sources) =
      if some source = permit.source then (.ok (), permit, sources)
      else if maximum ≤ (sources.lookup source).getD 0 then
        (.error ⟨.visitorSource, (sources.lookup source).getD 0⟩, permit, sources)
      else (.ok (), ⟨some source⟩, reattribute sources permit.source source) := by
  obtain ⟨current⟩ := permit
  rw [useSource, run_get_bind]
  unfold reattribute
  dsimp only
  by_cases hs : some source = current
  · rw [if_pos hs, if_pos hs]
    rfl
  rw [if_neg hs, if_neg hs]
  by_cases hf : maximum ≤ (sources.lookup source).getD 0
  · rw [if_pos hf]
    simp only [hf, if_true]
    rfl
  simp only [hf, if_false]
  cases current with
  | none => rfl
  | some previousSource =>
    cases hl : sources.lookup previousSource with
    | none =>
      simp only [decrement, hl]
      rfl
    | some previous =>
      by_cases hz : previous - 1 = 0
      · simp only [decrement, hl, hz, if_true]
        rw [← erase_insert_self sources previousSource 0]
        rfl
      · simp only [decrement, hl, hz, if_false]
        rfl

theorem useCanonicalSource_eq (a : VisitorAdmission) (permit : VisitorAdmissionPermit)
    (source : IpAddr) (maximum : Nat) :
    a.useCanonicalSource permit source maximum =
      match (useSource source maximum).run (permit, a.pendingVisitorsBySource) with
      | (.ok (), permit, sources) => .ok (permit, { a with pendingVisitorsBySource := sources })
      | (.error rejection, _, _) => .error rejection := by
  rw [useSource_run, VisitorAdmission.useCanonicalSource]
  split
  · rfl
  · dsimp only
    split <;> rfl

/-! ## Tasks with permits -/

/-- A permit in the hands of a task. -/
inductive PermitPhase where
  | held (permit : VisitorAdmissionPermit)
  /-- `drop` has run, and the global permit is still there. -/
  | dropping
  | dropped
deriving DecidableEq

namespace PermitPhase

/-- What the permit is to the count of a source. -/
def attributed (source : IpAddr) : PermitPhase → Nat
  | .held permit => if permit.source = some source then 1 else 0
  | .dropping | .dropped => 0

/-- What the permit is to the global permits. -/
def live : PermitPhase → Nat
  | .held _ | .dropping => 1
  | .dropped => 0

end PermitPhase

structure VisitorPermits where
  admission : VisitorAdmission
  permits : List PermitPhase := []

namespace VisitorPermits

open PermitPhase

def start (limits : VisitorLimits) : VisitorPermits where
  admission := .new limits

inductive Action where
  /-- `try_admit_visitor_global`. -/
  | tryAdmit
  | useSource (i : Nat) (source : IpAddr) (maximum : Nat)
  /-- `Drop for VisitorAdmissionPermit`. -/
  | drop (i : Nat)
  /-- The global permit of a dropped permit goes. -/
  | dropGlobal (i : Nat)

def step (s : VisitorPermits) : Action → Option VisitorPermits
  | .tryAdmit =>
    match s.admission.tryAdmitVisitorGlobal with
    | .ok (permit, admission) =>
      some { s with admission, permits := s.permits ++ [.held permit] }
    | .error _ => some s
  | .useSource i source maximum =>
    match s.permits[i]? with
    | some (.held permit) =>
      let result := (useSource source maximum).run
        (permit, s.admission.pendingVisitorsBySource)
      some { s with
        admission := { s.admission with pendingVisitorsBySource := result.2.2 }
        permits := s.permits.set i (.held result.2.1) }
    | _ => none
  | .drop i =>
    match s.permits[i]? with
    | some (.held permit) =>
      some { s with
        admission := { s.admission with
          pendingVisitorsBySource := match permit.source with
            | some source =>
              VisitorAdmission.removeSource s.admission.pendingVisitorsBySource source
            | none => s.admission.pendingVisitorsBySource }
        permits := s.permits.set i .dropping }
    | _ => none
  | .dropGlobal i =>
    match s.permits[i]? with
    | some .dropping =>
      some { s with
        admission := { s.admission with
          pendingVisitors := s.admission.pendingVisitors.release }
        permits := s.permits.set i .dropped }
    | _ => none

def system : Lts VisitorPermits Action := ⟨step⟩

/-- The live permits that are attributed to a source. -/
def attributedTo (s : VisitorPermits) (source : IpAddr) : Nat :=
  tally (attributed source) s.permits

/-- The live permits. -/
def live (s : VisitorPermits) : Nat := tally PermitPhase.live s.permits

/-- The map counts the attributions, and the semaphore has what is not in use. -/
structure Sound (limits : VisitorLimits) (s : VisitorPermits) : Prop where
  bySource : Counts s.admission.pendingVisitorsBySource s.attributedTo
  available : s.admission.pendingVisitors.permits + s.live = limits.maxPendingVisitors
  unqueued : s.admission.pendingVisitors.queue = []

theorem sound_start (limits : VisitorLimits) : Sound limits (start limits) where
  bySource := counts_empty
  available := rfl
  unqueued := rfl

variable {s s' : VisitorPermits} {limits : VisitorLimits} {i : Nat}
  {permit permit' : VisitorAdmissionPermit} {source : IpAddr} {maximum : Nat}

theorem attributedTo_set (hi : s.permits[i]? = some (.held permit)) (p : PermitPhase)
    (admission : VisitorAdmission) (source : IpAddr) :
    attributed source (.held permit) ≤ s.attributedTo source ∧
    (attributedTo ⟨admission, s.permits.set i p⟩ source + attributed source (.held permit) =
      s.attributedTo source + attributed source p) :=
  tally_set (attributed source) p hi

theorem counts_removed (h : Counts s.admission.pendingVisitorsBySource s.attributedTo)
    (hi : s.permits[i]? = some (.held permit)) (admission : VisitorAdmission) :
    Counts (match permit.source with
        | some source => decrement s.admission.pendingVisitorsBySource source
        | none => s.admission.pendingVisitorsBySource)
      (attributedTo ⟨admission, s.permits.set i .dropping⟩) := by
  have hse := attributedTo_set hi .dropping admission
  cases hs : permit.source with
  | none =>
    refine h.congr fun k => ?_
    have hk := (hse k).2
    simpa [attributed, hs] using hk
  | some source =>
    refine h.decrement ?_ fun k hk => ?_
    · have hk := (hse source).2
      simpa [attributed, hs] using hk
    · have hk' := (hse k).2
      simpa [attributed, hs, Ne.symm hk] using hk'

theorem counts_reattribute (h : Counts s.admission.pendingVisitorsBySource s.attributedTo)
    (hi : s.permits[i]? = some (.held permit)) (hne : some source ≠ permit.source)
    (admission : VisitorAdmission) :
    Counts (reattribute s.admission.pendingVisitorsBySource permit.source source)
        (attributedTo ⟨admission, s.permits.set i (.held ⟨some source⟩)⟩) ∧
      attributedTo ⟨admission, s.permits.set i (.held ⟨some source⟩)⟩ source =
        s.attributedTo source + 1 ∧
      ∀ k, k ≠ source → attributedTo ⟨admission, s.permits.set i (.held ⟨some source⟩)⟩ k ≤
        s.attributedTo k := by
  have hs := attributedTo_set hi (.held ⟨some source⟩) admission
  have hd := attributedTo_set hi .dropping admission
  have hr := counts_removed h hi admission
  have hse : attributed source (.held permit) = 0 := by
    simp [attributed, Ne.symm hne]
  refine ⟨hr.increment ?_ fun k hk => ?_, ?_, fun k hk => ?_⟩
  · have h₁ := (hs source).2
    have h₂ := (hd source).2
    simp only [attributed, if_true] at h₁ h₂
    omega
  · have h₁ := (hs k).2
    have h₂ := (hd k).2
    have hz : attributed k (.held ⟨some source⟩) = 0 := by simp [attributed, Ne.symm hk]
    simp only [hz] at h₁
    simp only [attributed] at h₁ h₂
    omega
  · have h₁ := (hs source).2
    simp only [hse] at h₁
    simpa [attributed] using h₁
  · have h₁ := (hs k).2
    have hz : attributed k (.held ⟨some source⟩) = 0 := by simp [attributed, Ne.symm hk]
    omega

/-! ## What a step does -/

theorem live_set (hi : s.permits[i]? = some (.held permit)) {p : PermitPhase} (hp : p.live = 1)
    (admission : VisitorAdmission) : live ⟨admission, s.permits.set i p⟩ = s.live := by
  have hs := (tally_set PermitPhase.live p hi).2
  rw [hp] at hs
  exact Nat.add_right_cancel hs

theorem permits_set_self {p : PermitPhase} (hi : s.permits[i]? = some p) :
    s.permits.set i p = s.permits := by
  obtain ⟨hlt, hg⟩ := List.getElem?_eq_some_iff.mp hi
  rw [← hg]
  exact List.set_getElem_self hlt

theorem Sound.tryAdmit (h : s.Sound limits) {admission : VisitorAdmission}
    (hok : s.admission.tryAdmitVisitorGlobal = .ok (permit, admission)) :
    Sound limits ⟨admission, s.permits ++ [.held permit]⟩ ∧
      ∀ k, attributedTo ⟨admission, s.permits ++ [.held permit]⟩ k = s.attributedTo k := by
  obtain ⟨semaphore, ha, heq⟩ := map_ok hok
  cases heq
  unfold VisitorAdmission.tryAdmit at ha
  split at ha
  · next semaphore' hac =>
    cases ha
    obtain ⟨hp, rfl⟩ := Option.ite_some_none_eq_some.mp hac
    have hs : ∀ k, tally (attributed k) (s.permits ++ [.held {}]) = s.attributedTo k := by
      simp [attributedTo, attributed]
    refine ⟨⟨h.bySource.congr hs, ?_, h.unqueued⟩, hs⟩
    have hav := h.available
    simp only [live, tally_concat, PermitPhase.live] at hav ⊢
    omega
  · cases ha

/-- A call of `use_canonical_source`: it is rejected, finds its source, or attributes. -/
theorem Sound.useSource (h : s.Sound limits)
    (hs : system.step s (.useSource i source maximum) = some s') :
    s'.Sound limits ∧ ((∀ k, s'.attributedTo k ≤ s.attributedTo k) ∨
      s'.attributedTo source ≤ maximum ∧
        ∀ k, k ≠ source → s'.attributedTo k ≤ s.attributedTo k) := by
  simp only [system, step] at hs
  split at hs
  · next permit hi =>
    cases hs
    rw [useSource_run]
    split
    · rw [permits_set_self hi]
      exact ⟨{ h with }, .inl fun _ => le_rfl⟩
    · next hne =>
      split
      · rw [permits_set_self hi]
        exact ⟨{ h with }, .inl fun _ => le_rfl⟩
      · next hr =>
        rw [h.bySource.getD] at hr
        obtain ⟨hc, hse, ho⟩ := counts_reattribute h.bySource hi hne s.admission
        refine ⟨⟨hc, ?_, h.unqueued⟩, .inr ⟨?_, ho⟩⟩
        · have hl := live_set hi (p := .held ⟨some source⟩) rfl s.admission
          exact (congrArg (s.admission.pendingVisitors.permits + ·) hl).trans h.available
        · exact (Nat.le_of_eq hse).trans (Nat.not_le.mp hr)
  · cases hs

theorem Sound.drop (h : s.Sound limits) (hs : system.step s (.drop i) = some s') :
    s'.Sound limits ∧ ∀ k, s'.attributedTo k ≤ s.attributedTo k := by
  simp only [system, step] at hs
  split at hs
  · next permit hi =>
    cases hs
    refine ⟨⟨counts_removed h.bySource hi _, ?_, h.unqueued⟩, fun k => ?_⟩
    · have hl := live_set hi (p := .dropping) rfl s.admission
      exact (congrArg (s.admission.pendingVisitors.permits + ·) hl).trans h.available
    · have hse := (attributedTo_set hi .dropping (s.admission) k).2
      simp only [attributedTo, attributed] at hse ⊢
      omega
  · cases hs

theorem Sound.dropGlobal (h : s.Sound limits) (hs : system.step s (.dropGlobal i) = some s') :
    s'.Sound limits ∧ ∀ k, s'.attributedTo k = s.attributedTo k := by
  simp only [system, step] at hs
  split at hs
  · next hi =>
    cases hs
    have hr : s.admission.pendingVisitors.release = { s.admission.pendingVisitors with
        permits := s.admission.pendingVisitors.permits + 1 } := by
      simp [Semaphore.release, h.unqueued]
    have hsa : ∀ k, tally (attributed k) (s.permits.set i .dropped) = s.attributedTo k := by
      intro k
      have hse := (tally_set (attributed k) .dropped hi).2
      simpa [attributedTo, attributed] using hse
    refine ⟨⟨h.bySource.congr hsa, ?_, ?_⟩, hsa⟩
    · have hse := (tally_set PermitPhase.live .dropped hi).2
      have ha := h.available
      simp only [PermitPhase.live, live] at hse ha ⊢
      rw [hr]
      dsimp only
      omega
    · rw [hr]
      exact h.unqueued
  · cases hs

/-- A source's count grows by a call that attributes to it, up to the maximum of the call. -/
theorem Sound.step {a : Action} (h : s.Sound limits) (hs : system.step s a = some s') :
    s'.Sound limits ∧ ∀ k, s.attributedTo k < s'.attributedTo k →
      ∃ i maximum, a = .useSource i k maximum ∧ s'.attributedTo k ≤ maximum := by
  cases a with
  | tryAdmit =>
    simp only [system, VisitorPermits.step] at hs
    split at hs
    · next permit admission hok =>
      cases hs
      obtain ⟨hso, hsa⟩ := h.tryAdmit hok
      exact ⟨hso, fun k hlt => absurd (hsa k) (Nat.ne_of_gt hlt)⟩
    · cases hs
      exact ⟨h, fun k hlt => absurd hlt (Nat.lt_irrefl _)⟩
  | useSource i source maximum =>
    obtain ⟨hso, hle | ⟨hm, ho⟩⟩ := h.useSource hs
    · exact ⟨hso, fun k hlt => absurd (hle k) (Nat.not_le.mpr hlt)⟩
    · refine ⟨hso, fun k hlt => ?_⟩
      by_cases hk : k = source
      · subst hk
        exact ⟨i, maximum, rfl, hm⟩
      · exact absurd (ho k hk) (Nat.not_le.mpr hlt)
  | drop i =>
    obtain ⟨hso, hle⟩ := h.drop hs
    exact ⟨hso, fun k hlt => absurd (hle k) (Nat.not_le.mpr hlt)⟩
  | dropGlobal i =>
    obtain ⟨hso, hsa⟩ := h.dropGlobal hs
    exact ⟨hso, fun k hlt => absurd (hsa k) (Nat.ne_of_gt hlt)⟩

/-- What the admission of Visitors keeps to before they are routed. -/
structure KeepsSources (limits : VisitorLimits) (s : VisitorPermits) : Prop where
  /-- A source has an entry with the permits attributed to it, or none of both. -/
  bySource : ∀ source, s.admission.pendingVisitorsBySource.lookup source =
    if s.attributedTo source = 0 then none else some (s.attributedTo source)
  /-- The permits in use are the live ones. -/
  inUse : limits.maxPendingVisitors - s.admission.pendingVisitors.permits = s.live ∧
    s.admission.pendingVisitors.permits ≤ limits.maxPendingVisitors
  attributes : ∀ a s' source, system.step s a = some s' →
    s.attributedTo source < s'.attributedTo source →
    ∃ i maximum, a = .useSource i source maximum ∧ s'.attributedTo source ≤ maximum
  rejects : ∀ i permit source maximum rejection, s.permits[i]? = some (.held permit) →
    ((useSource source maximum).run (permit, s.admission.pendingVisitorsBySource)).1 =
      .error rejection →
    system.step s (.useSource i source maximum) = some s

theorem rejected_keeps {rejection : AdmissionRejection}
    (hi : s.permits[i]? = some (.held permit))
    (hr : ((useSource source maximum).run
      (permit, s.admission.pendingVisitorsBySource)).1 = .error rejection) :
    system.step s (.useSource i source maximum) = some s := by
  simp only [system, step, hi]
  rw [useSource_run] at hr ⊢
  split at hr
  · cases hr
  · next hne =>
    split at hr
    · next hf => rw [if_neg hne, if_pos hf, permits_set_self hi]
    · cases hr

/-- In every interleaving, with any limits, sources and maxima. -/
theorem visitor_admission_keeps_sources (limits : VisitorLimits)
    (hrun : system.Reaches (start limits) s) : s.KeepsSources limits := by
  have h : s.Sound limits := hrun.invariant (I := Sound limits)
    (fun _ _ _ hi _ hs => (hi.step hs).1) (sound_start limits)
  have ha := h.available
  refine ⟨h.bySource, ⟨by omega, by omega⟩, ?_, ?_⟩
  · intro a s' source hs hlt
    exact (h.step hs).2 source hlt
  · intro i permit source maximum rejection hi hr
    exact rejected_keeps hi hr

/-- Two permits come to one source, one is moved to another and a third is rejected, and
one is on its way out. -/
theorem visitor_admission_keeps_sources_moved :
    ∃ s, system.Reaches (start {}) s ∧ s.live = 3 ∧ s.attributedTo (.v4 1) = 1 ∧
      s.attributedTo (.v4 2) = 0 ∧ s.KeepsSources {} := by
  have he : ∃ s ∈ system.exec (start {})
      [.tryAdmit, .tryAdmit, .tryAdmit, .useSource 0 (.v4 1) 2, .useSource 1 (.v4 1) 2,
        .useSource 2 (.v4 1) 2, .useSource 0 (.v4 2) 1, .useSource 2 (.v4 2) 1, .drop 0],
      s.live = 3 ∧ s.attributedTo (.v4 1) = 1 ∧ s.attributedTo (.v4 2) = 0 := by
    decide
  obtain ⟨s, hs, hl, ho, ht⟩ := he
  have hr := Lts.Reaches.of_exec hs
  exact ⟨s, hr, hl, ho, ht, visitor_admission_keeps_sources {} hr⟩

end VisitorPermits

end Runewarp.Server
