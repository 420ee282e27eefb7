import Mathlib.Algebra.GroupWithZero.Nat
import Runewarp.Server.RegistrySteps

/-!
# Visitor work and its authorization

What the registry does with Visitor work, seen apart from pools, locks and
connections, is a small protocol.  A Visitor is routed under the snapshot that
is current, registers later under the snapshot that is current then, and gets a
record only when the two are the same one and still map its hostname and its
Client identity to one Tunnel.  A replacement prepares a snapshot, installs it,
resets the records it no longer authorizes and counts them.

`WorkStep` is that protocol over `WorkView`, and `workStep_of_step` says that the
registry follows it step by step.  The guarantees are invariants of the protocol.
Snapshots are told apart by allocation alone, as `Arc::ptr_eq` does: a route holds
its snapshot, so an allocation is never used again.
-/

namespace Runewarp.Server

/-- Where a Visitor stands. -/
inductive Progress where
  | waiting
  /-- Routed under a snapshot. -/
  | routed (under : SnapshotRef)
  /-- Registered; `started` once the proxy future runs. -/
  | working (work : ActiveVisitorWork) (started : Bool)
  | finished

def VisitorTask.progress : VisitorTask → Progress
  | .awaitPools _ => .waiting
  | .readPools _ => .waiting
  | .select _ authorization _ => .routed authorization
  | .routed _ route => .routed route.authorization
  | .registered work => .working work false
  | .proxying work => .working work true
  | .finished => .finished

/-- Where a replacement stands. -/
inductive Replacement where
  | prepared (next : SnapshotRef)
  | committed (next : SnapshotRef)
  | counted (streamsReset : Nat)

def ReplaceTask.replacement : ReplaceTask → Replacement
  | .awaitPools _ prepared => .prepared prepared
  | .locked _ prepared => .prepared prepared
  | .closing _ next _ _ _ => .committed next
  | .taking _ next _ _ _ => .committed next
  | .adopting next _ _ => .committed next
  | .adoptPush next _ _ _ _ => .committed next
  | .resetting next _ => .committed next
  | .finishing dispatch => .counted dispatch.streamsReset

/-- The registry as far as Visitor work is concerned. -/
structure WorkView where
  authorization : SnapshotRef
  nextAlloc : Nat
  replacement : Option Replacement
  visitors : Nat → Option Progress
  nextVisitor : Nat
  work : List ActiveVisitorWorkRecord
  nextStreamId : Nat
  resets : List Nat
  /-- The `streams_reset` of the replacements that returned. -/
  reported : List Nat

namespace WorkView

def setVisitor (v : WorkView) (t : Nat) (p : Progress) : WorkView :=
  { v with visitors := Function.update v.visitors t (some p) }

theorem visitors_setVisitor {v : WorkView} {t u : Nat} {p q : Progress}
    (h : (v.setVisitor t p).visitors u = some q) :
    (u = t ∧ q = p) ∨ (u ≠ t ∧ v.visitors u = some q) := by
  by_cases hu : u = t
  · subst hu
    simp only [setVisitor, Function.update_self, Option.some.injEq] at h
    exact .inl ⟨rfl, h.symm⟩
  · simp only [setVisitor, Function.update_of_ne hu] at h
    exact .inr ⟨hu, h⟩

theorem setVisitor_eq_self {v : WorkView} {t : Nat} {p : Progress} (h : v.visitors t = some p) :
    v.setVisitor t p = v := by
  have hv : Function.update v.visitors t (some p) = v.visitors := by
    rw [← h, Function.update_eq_self]
  simp only [setVisitor, hv]

end WorkView

/-- A snapshot maps a hostname and a Client identity to one Tunnel. -/
def Authorizes (snapshot : ManagedSnapshot) (h : PublicHostname) (c : ClientIdentity) : Prop :=
  ∃ i, snapshot.hostIndex h = some i ∧ snapshot.index c = some i

theorem streamRemainsAuthorized_iff {stream : ActiveVisitorWorkRecord}
    {snapshot : ManagedSnapshot} :
    TunnelRegistry.streamRemainsAuthorized stream snapshot = true ↔
      Authorizes snapshot stream.publicHostname stream.clientIdentity := by
  cases hh : snapshot.hostIndex stream.publicHostname with
  | none => simp [TunnelRegistry.streamRemainsAuthorized, Authorizes, hh]
  | some i =>
    cases hc : snapshot.index stream.clientIdentity with
    | none => simp [TunnelRegistry.streamRemainsAuthorized, Authorizes, hh, hc]
    | some j =>
      simp only [TunnelRegistry.streamRemainsAuthorized, Authorizes, hh, hc, beq_iff_eq,
        Option.some.injEq, exists_eq_left']
      exact eq_comm

/-- The record of a piece of work. -/
def ActiveVisitorWorkRecord.IsOf (record : ActiveVisitorWorkRecord) (work : ActiveVisitorWork) :
    Prop :=
  record.streamId = work.streamId ∧ record.publicHostname = work.publicHostname ∧
    record.clientIdentity = work.route.connection.clientIdentity

/-- The record `register_active_visitor_work` makes. -/
def ActiveVisitorWork.record (work : ActiveVisitorWork) : ActiveVisitorWorkRecord where
  streamId := work.streamId
  publicHostname := work.publicHostname
  memberId := work.route.connection.memberId
  clientIdentity := work.route.connection.clientIdentity
  abortRequested := false

/-! ## The protocol -/

/-- The streams `reset_streams_matching` aborts. -/
def resetIds (snapshot : ManagedSnapshot) (work : List ActiveVisitorWorkRecord) : List Nat :=
  (work.filter (TunnelRegistry.resets? snapshot)).map fun stream => stream.streamId

inductive WorkStep (v : WorkView) : WorkView → Prop where
  | enter : p = .waiting ∨ p = .finished →
      WorkStep v { v.setVisitor v.nextVisitor p with nextVisitor := v.nextVisitor + 1 }
  | route : v.visitors t = some .waiting →
      WorkStep v (v.setVisitor t (.routed v.authorization))
  | giveUp : v.visitors t = some p → (∀ work started, p ≠ .working work started) →
      WorkStep v (v.setVisitor t .finished)
  /-- The route is current, and the snapshot still authorizes it. -/
  | register : v.visitors t = some (.routed route.authorization) →
      route.authorization.alloc = v.authorization.alloc →
      Authorizes v.authorization.snapshot h route.connection.clientIdentity →
      WorkStep v { v.setVisitor t
          (.working ⟨v.nextStreamId, h, route, v.authorization⟩ false) with
        work := v.work ++ [ActiveVisitorWork.record ⟨v.nextStreamId, h, route, v.authorization⟩]
        nextStreamId := v.nextStreamId + 1 }
  /-- The proxy future is polled for the first time. -/
  | proxy : v.visitors t = some (.working work false) →
      (∀ record ∈ v.work, record.streamId = work.streamId → record.abortRequested = false) →
      WorkStep v (v.setVisitor t (.working work true))
  | leave : v.visitors t = some (.working work started) →
      WorkStep v { v.setVisitor t .finished with
        work := v.work.filter fun stream => decide (stream.streamId ≠ work.streamId) }
  | prepare : v.replacement = none →
      WorkStep v { v with
        nextAlloc := v.nextAlloc + 1
        replacement := some (.prepared ⟨v.nextAlloc, snapshot⟩) }
  | commit : v.replacement = some (.prepared next) →
      WorkStep v { v with authorization := next, replacement := some (.committed next) }
  | reset : v.replacement = some (.committed next) →
      WorkStep v { v with
        work := TunnelRegistry.resetStreamsMatching next.snapshot v.work
        resets := v.resets ++ resetIds next.snapshot v.work
        replacement := some (.counted (resetIds next.snapshot v.work).length) }
  | finish : v.replacement = some (.counted n) →
      WorkStep v { v with replacement := none, reported := v.reported ++ [n] }

/-! ## Snapshots

A route that shares its allocation with the current snapshot shares the snapshot. -/

structure Snapshots (v : WorkView) : Prop where
  alloc_lt : v.authorization.alloc < v.nextAlloc
  fresh : ∀ next, v.replacement = some (.prepared next) →
    v.authorization.alloc < next.alloc ∧ next.alloc < v.nextAlloc
  installed : ∀ next, v.replacement = some (.committed next) → next = v.authorization
  routes : ∀ t ref, v.visitors t = some (.routed ref) → ref.alloc ≤ v.authorization.alloc ∧
    (ref.alloc = v.authorization.alloc → ref = v.authorization)

variable {v w : WorkView} {t : Nat} {p : Progress} {snapshot : ManagedSnapshot}
  {work : List ActiveVisitorWorkRecord} {record : ActiveVisitorWorkRecord}

/-- A Visitor that does not become routed leaves the snapshots as they are. -/
theorem Snapshots.setVisitor (h : Snapshots v)
    (hp : ∀ ref, p = .routed ref → ref = v.authorization) : Snapshots (v.setVisitor t p) := by
  refine ⟨h.alloc_lt, h.fresh, h.installed, ?_⟩
  intro u ref hu
  rcases WorkView.visitors_setVisitor hu with ⟨-, hn⟩ | ⟨-, hold⟩
  · rw [hp ref hn.symm]
    exact ⟨le_rfl, fun _ => rfl⟩
  · exact h.routes u ref hold

theorem Snapshots.step (h : Snapshots v) (hs : WorkStep v w) : Snapshots w := by
  cases hs with
  | @enter p hp =>
    have hse : Snapshots (v.setVisitor v.nextVisitor p) := h.setVisitor (by
      rintro ref rfl
      simp at hp)
    exact { hse with }
  | route => exact h.setVisitor fun ref hre => by cases hre; rfl
  | @register t host route _ _ _ =>
    have hse : Snapshots (v.setVisitor t
        (.working ⟨v.nextStreamId, host, route, v.authorization⟩ false)) :=
      h.setVisitor (by simp)
    exact { hse with }
  | @leave t _ _ _ =>
    have hse : Snapshots (v.setVisitor t .finished) := h.setVisitor (by simp)
    exact { hse with }
  | prepare =>
    refine ⟨Nat.lt_succ_of_lt h.alloc_lt, ?_, by simp, h.routes⟩
    rintro next ⟨⟩
    exact ⟨h.alloc_lt, Nat.lt_succ_self _⟩
  | commit hr =>
    obtain ⟨hlt, hn⟩ := h.fresh _ hr
    refine ⟨hn, by simp, fun next' heq => by cases heq; rfl, ?_⟩
    intro t ref hv
    have hb := Nat.lt_of_le_of_lt (h.routes t ref hv).1 hlt
    exact ⟨Nat.le_of_lt hb, fun heq => absurd heq (Nat.ne_of_lt hb)⟩
  | reset => exact ⟨h.alloc_lt, by simp, by simp, h.routes⟩
  | finish => exact ⟨h.alloc_lt, by simp, by simp, h.routes⟩
  | _ => exact h.setVisitor (by simp)

/-! ## Streams

Stream IDs are not used again, and every piece of work has its record until it
ends. -/

theorem map_streamId_resetStreamsMatching (snapshot : ManagedSnapshot)
    (work : List ActiveVisitorWorkRecord) :
    (TunnelRegistry.resetStreamsMatching snapshot work).map (fun stream => stream.streamId) =
      work.map fun stream => stream.streamId := by
  simp only [TunnelRegistry.resetStreamsMatching, List.map_map, Function.comp_def, apply_ite,
    ite_self]

theorem mem_resetStreamsMatching (h : record ∈ TunnelRegistry.resetStreamsMatching snapshot work) :
    (record ∈ work ∧ TunnelRegistry.resets? snapshot record = false) ∨
      ∃ old ∈ work, TunnelRegistry.resets? snapshot old = true ∧
        record = { old with abortRequested := true } := by
  obtain ⟨old, hold, heq⟩ := List.mem_map.mp h
  cases hr : TunnelRegistry.resets? snapshot old with
  | true => exact .inr ⟨old, hold, hr, by simpa [hr] using heq.symm⟩
  | false =>
    have heq' : old = record := by simpa [hr] using heq
    exact .inl ⟨heq' ▸ hold, heq' ▸ hr⟩

theorem exists_of_mem_work {w : ActiveVisitorWork} (h : record ∈ work) (hw : record.IsOf w) :
    ∃ record' ∈ TunnelRegistry.resetStreamsMatching snapshot work, record'.IsOf w := by
  refine ⟨_, List.mem_map_of_mem h, ?_⟩
  split
  · exact hw
  · exact hw

structure Streams (v : WorkView) : Prop where
  entered : ∀ t p, v.visitors t = some p → t < v.nextVisitor
  owner : ∀ t t' w w' b b', v.visitors t = some (.working w b) →
    v.visitors t' = some (.working w' b') → w.streamId = w'.streamId → t = t'
  has_record : ∀ t w b, v.visitors t = some (.working w b) → ∃ record ∈ v.work, record.IsOf w
  ids : (v.work.map fun stream => stream.streamId).Nodup
  ids_lt : ∀ record ∈ v.work, record.streamId < v.nextStreamId

/-- A Visitor that was not working, or keeps its work, moves on. -/
theorem Streams.setVisitor (h : Streams v) (ht : t < v.nextVisitor)
    (hp : ∀ w b, p = .working w b → ∃ b', v.visitors t = some (.working w b')) :
    Streams (v.setVisitor t p) := by
  -- Whatever works afterwards worked before, under the same Visitor.
  have hb : ∀ u w b, (v.setVisitor t p).visitors u = some (.working w b) →
      ∃ b', v.visitors u = some (.working w b') := by
    intro u w b hu
    rcases WorkView.visitors_setVisitor hu with ⟨rfl, hn⟩ | ⟨-, hold⟩
    · exact hp w b hn.symm
    · exact ⟨b, hold⟩
  refine ⟨?_, ?_, ?_, h.ids, h.ids_lt⟩
  · intro u q hu
    rcases WorkView.visitors_setVisitor hu with ⟨rfl, -⟩ | ⟨-, hold⟩
    · exact ht
    · exact h.entered u q hold
  · intro u u' w w' b b' hu hu'
    obtain ⟨_, hw⟩ := hb u w b hu
    obtain ⟨_, hw'⟩ := hb u' w' b' hu'
    exact h.owner u u' w w' _ _ hw hw'
  · intro u w b hu
    obtain ⟨_, hw⟩ := hb u w b hu
    exact h.has_record u w _ hw

theorem Streams.streamId_lt (h : Streams v) {w : ActiveVisitorWork}
    {b : Bool} (hv : v.visitors t = some (.working w b)) : w.streamId < v.nextStreamId := by
  obtain ⟨record, hm, hid, -⟩ := h.has_record t w b hv
  exact hid ▸ h.ids_lt record hm

theorem Streams.register (h : Streams v) (ht : t < v.nextVisitor)
    {w : ActiveVisitorWork} (hw : w.streamId = v.nextStreamId) :
    Streams { v.setVisitor t (.working w false) with
      work := v.work ++ [w.record]
      nextStreamId := v.nextStreamId + 1 } := by
  refine ⟨?_, ?_, ?_, ?_, ?_⟩
  · intro u q hu
    rcases WorkView.visitors_setVisitor hu with ⟨rfl, -⟩ | ⟨-, hold⟩
    · exact ht
    · exact h.entered u q hold
  · intro u u' w₁ w₂ b₁ b₂ hu hu' hid
    rcases WorkView.visitors_setVisitor hu with ⟨rfl, hn⟩ | ⟨-, hold⟩
    · rcases WorkView.visitors_setVisitor hu' with ⟨rfl, -⟩ | ⟨-, ho'⟩
      · rfl
      · cases hn
        exact absurd (hw.symm.trans hid) (Nat.ne_of_gt (h.streamId_lt ho'))
    · rcases WorkView.visitors_setVisitor hu' with ⟨rfl, hn'⟩ | ⟨-, ho'⟩
      · cases hn'
        exact absurd (hid.trans hw) (Nat.ne_of_lt (h.streamId_lt hold))
      · exact h.owner u u' w₁ w₂ b₁ b₂ hold ho' hid
  · intro u w₁ b₁ hu
    rcases WorkView.visitors_setVisitor hu with ⟨rfl, hn⟩ | ⟨-, hold⟩
    · cases hn
      exact ⟨w.record, by simp, rfl, rfl, rfl⟩
    · obtain ⟨record, hm, hof⟩ := h.has_record u w₁ b₁ hold
      exact ⟨record, List.mem_append_left _ hm, hof⟩
  · simp only [List.map_append, List.map_cons, List.map_nil, List.nodup_append, h.ids, true_and]
    refine ⟨by simp, ?_⟩
    intro i hi j hj heq
    obtain ⟨record, hm, rfl⟩ := List.mem_map.mp hi
    have hlt := h.ids_lt record hm
    simp only [List.mem_singleton] at hj
    rw [heq, hj] at hlt
    exact absurd hlt (by simp [ActiveVisitorWork.record, hw])
  · intro record hm
    rcases List.mem_append.mp hm with hold | hn
    · exact Nat.lt_succ_of_lt (h.ids_lt record hold)
    · obtain rfl := List.mem_singleton.mp hn
      exact Nat.lt_succ_of_le (Nat.le_of_eq hw)

theorem Streams.leave (h : Streams v) {w : ActiveVisitorWork} {b : Bool}
    (hv : v.visitors t = some (.working w b)) :
    Streams { v.setVisitor t .finished with
      work := v.work.filter fun stream => decide (stream.streamId ≠ w.streamId) } := by
  have hs : Streams (v.setVisitor t .finished) :=
    h.setVisitor (h.entered t _ hv) (by simp)
  refine ⟨hs.entered, hs.owner, ?_, ?_, ?_⟩
  · intro u w₁ b₁ hu
    obtain ⟨record, hm, hof⟩ := hs.has_record u w₁ b₁ hu
    refine ⟨record, List.mem_filter.mpr ⟨hm, ?_⟩, hof⟩
    rcases WorkView.visitors_setVisitor hu with ⟨-, hn⟩ | ⟨hne, hold⟩
    · cases hn
    · have hid : w₁.streamId ≠ w.streamId := fun heq => hne (h.owner u t w₁ w b₁ b hold hv heq)
      simpa [hof.1] using hid
  · exact h.ids.sublist (List.filter_sublist.map _)
  · intro record hm
    exact h.ids_lt record (List.mem_of_mem_filter hm)

theorem Streams.step (h : Streams v) (hs : WorkStep v w) : Streams w := by
  cases hs with
  | @enter p hp =>
    have hno : ∀ w b, p ≠ .working w b := by
      rintro w b rfl
      simp at hp
    refine ⟨?_, ?_, ?_, h.ids, h.ids_lt⟩
    · intro u q hu
      rcases WorkView.visitors_setVisitor hu with ⟨rfl, -⟩ | ⟨-, hold⟩
      · exact Nat.lt_succ_self _
      · exact Nat.lt_succ_of_lt (h.entered u q hold)
    · intro u u' w w' b b' hu hu'
      rcases WorkView.visitors_setVisitor hu with ⟨-, hn⟩ | ⟨-, hold⟩
      · exact absurd hn.symm (hno w b)
      · rcases WorkView.visitors_setVisitor hu' with ⟨-, hn'⟩ | ⟨-, ho'⟩
        · exact absurd hn'.symm (hno w' b')
        · exact h.owner u u' w w' b b' hold ho'
    · intro u w b hu
      rcases WorkView.visitors_setVisitor hu with ⟨-, hn⟩ | ⟨-, hold⟩
      · exact absurd hn.symm (hno w b)
      · exact h.has_record u w b hold
  | route hv => exact h.setVisitor (h.entered _ _ hv) (by simp)
  | giveUp hv => exact h.setVisitor (h.entered _ _ hv) (by simp)
  | proxy hv =>
    refine h.setVisitor (h.entered _ _ hv) ?_
    rintro w b ⟨⟩
    exact ⟨_, hv⟩
  | register hv => exact h.register (h.entered _ _ hv) rfl
  | leave hv => exact h.leave hv
  | reset =>
    refine ⟨h.entered, h.owner, ?_, ?_, ?_⟩
    · intro u w b hu
      obtain ⟨record, hm, hof⟩ := h.has_record u w b hu
      exact exists_of_mem_work hm hof
    · show (List.map _ (TunnelRegistry.resetStreamsMatching _ _)).Nodup
      rw [map_streamId_resetStreamsMatching]
      exact h.ids
    · intro record hm
      rcases mem_resetStreamsMatching hm with ⟨hold, -⟩ | ⟨old, hold, -, rfl⟩
      · exact h.ids_lt record hold
      · exact h.ids_lt old hold
  | _ => exact { h with }

/-! ## Authorization -/

/-- Work was registered under the snapshot its route was computed from, and that
snapshot authorized it. -/
def Granted (work : ActiveVisitorWork) : Prop :=
  work.route.authorization = work.registeredUnder ∧
    Authorizes work.registeredUnder.snapshot work.publicHostname
      work.route.connection.clientIdentity

def AllGranted (v : WorkView) : Prop :=
  ∀ t work started, v.visitors t = some (.working work started) → Granted work

theorem AllGranted.step (h : AllGranted v) (hsn : Snapshots v)
    (hs : WorkStep v w) : AllGranted w := by
  intro u work started hu
  cases hs with
  | enter hp =>
    rcases WorkView.visitors_setVisitor hu with ⟨-, rfl⟩ | ⟨-, hold⟩
    · simp at hp
    · exact h u work started hold
  | route | giveUp | leave =>
    rcases WorkView.visitors_setVisitor hu with ⟨-, hn⟩ | ⟨-, hold⟩
    · cases hn
    · exact h u work started hold
  | proxy hv =>
    rcases WorkView.visitors_setVisitor hu with ⟨-, hn⟩ | ⟨-, hold⟩
    · cases hn
      exact h _ _ _ hv
    · exact h u work started hold
  | register hv ha hau =>
    rcases WorkView.visitors_setVisitor hu with ⟨-, hn⟩ | ⟨-, hold⟩
    · cases hn
      exact ⟨(hsn.routes _ _ hv).2 ha, hau⟩
    · exact h u work started hold
  | _ => exact h u work started hu

/-- The current snapshot authorizes every record that was not aborted. -/
def Enforced (v : WorkView) : Prop :=
  ∀ record ∈ v.work, record.abortRequested = false →
    Authorizes v.authorization.snapshot record.publicHostname record.clientIdentity

/-- Between its commit and its reset a replacement may owe resets. -/
def EnforcedUnlessCommitted (v : WorkView) : Prop :=
  (∀ next, v.replacement ≠ some (.committed next)) → Enforced v

theorem enforced_resetStreamsMatching
    (hm : record ∈ TunnelRegistry.resetStreamsMatching snapshot work)
    (hu : record.abortRequested = false) :
    Authorizes snapshot record.publicHostname record.clientIdentity := by
  rcases mem_resetStreamsMatching hm with ⟨-, hk⟩ | ⟨old, -, -, rfl⟩
  · simp only [TunnelRegistry.resets?, hu, Bool.not_false, Bool.true_and,
      Bool.not_eq_eq_eq_not] at hk
    exact streamRemainsAuthorized_iff.mp hk
  · cases hu

theorem EnforcedUnlessCommitted.step (h : EnforcedUnlessCommitted v)
    (hsn : Snapshots v) (hs : WorkStep v w) : EnforcedUnlessCommitted w := by
  intro hn
  cases hs with
  | register _ _ ha =>
    intro record hm hu
    rcases List.mem_append.mp hm with hold | hne
    · exact h hn record hold hu
    · obtain rfl := List.mem_singleton.mp hne
      exact ha
  | leave =>
    intro record hm hu
    exact h hn record (List.mem_of_mem_filter hm) hu
  | prepare hr => exact h (by simp [hr])
  | commit hr => exact absurd rfl (hn _)
  | reset hr =>
    intro record hm hu
    cases hsn.installed _ hr
    exact enforced_resetStreamsMatching hm hu
  | finish hr => exact h (by simp [hr])
  | _ => exact h hn

/-! ## Resets -/

/-- The resets a replacement has made and not yet returned. -/
def unreported : Option Replacement → Nat
  | some (.counted n) => n
  | _ => 0

/-- A record is aborted once, and counted once. -/
structure ResetOnce (v : WorkView) : Prop where
  nodup : v.resets.Nodup
  lt : ∀ id ∈ v.resets, id < v.nextStreamId
  aborted : ∀ record ∈ v.work, record.abortRequested = true ↔ record.streamId ∈ v.resets
  counted : v.reported.sum + unreported v.replacement = v.resets.length

theorem mem_resetIds (hi : (work.map fun stream => stream.streamId).Nodup) (hm : record ∈ work) :
    record.streamId ∈ resetIds snapshot work ↔ TunnelRegistry.resets? snapshot record = true := by
  constructor
  · intro h
    obtain ⟨other, ho, heq⟩ := List.mem_map.mp h
    obtain ⟨hin, hr⟩ := List.mem_filter.mp ho
    rwa [List.inj_on_of_nodup_map hi hin hm heq] at hr
  · intro h
    exact List.mem_map_of_mem (List.mem_filter.mpr ⟨hm, h⟩)

theorem ResetOnce.reset (h : ResetOnce v) (hst : Streams v)
    (snapshot : ManagedSnapshot) (hr : unreported v.replacement = 0) :
    ResetOnce { v with
      work := TunnelRegistry.resetStreamsMatching snapshot v.work
      resets := v.resets ++ resetIds snapshot v.work
      replacement := some (.counted (resetIds snapshot v.work).length) } := by
  have hs : ∀ id ∈ resetIds snapshot v.work, ∃ record ∈ v.work,
      record.streamId = id ∧ TunnelRegistry.resets? snapshot record = true := by
    intro id hid
    obtain ⟨record, hrc, rfl⟩ := List.mem_map.mp hid
    obtain ⟨hm, hre⟩ := List.mem_filter.mp hrc
    exact ⟨record, hm, rfl, hre⟩
  refine ⟨?_, ?_, ?_, ?_⟩
  · refine List.nodup_append.mpr ⟨h.nodup, hst.ids.sublist (List.filter_sublist.map _), ?_⟩
    rintro id hid _ hid' rfl
    obtain ⟨record, hm, rfl, hre⟩ := hs _ hid'
    rw [TunnelRegistry.resets?, (h.aborted record hm).mpr hid] at hre
    cases hre
  · intro id hid
    rcases List.mem_append.mp hid with hold | hn
    · exact h.lt id hold
    · obtain ⟨record, hm, rfl, -⟩ := hs id hn
      exact hst.ids_lt record hm
  · intro record hm
    rcases mem_resetStreamsMatching hm with ⟨hold, hk⟩ | ⟨old, hold, hre, rfl⟩
    · have hno : record.streamId ∉ resetIds snapshot v.work := by
        rw [mem_resetIds hst.ids hold, hk]
        simp
      simp [h.aborted record hold, hno]
    · have hn : old.streamId ∈ resetIds snapshot v.work := (mem_resetIds hst.ids hold).mpr hre
      simp [hn]
  · have hc := h.counted
    simp only [unreported, List.length_append]
    omega

theorem ResetOnce.step (h : ResetOnce v) (hst : Streams v) (hs : WorkStep v w) : ResetOnce w := by
  cases hs with
  | register =>
    refine ⟨h.nodup, fun id hid => Nat.lt_succ_of_lt (h.lt id hid), ?_, h.counted⟩
    intro record hm
    rcases List.mem_append.mp hm with hold | hn
    · exact h.aborted record hold
    · obtain rfl := List.mem_singleton.mp hn
      simp only [ActiveVisitorWork.record, Bool.false_eq_true, false_iff]
      exact fun hid => Nat.lt_irrefl _ (h.lt _ hid)
  | leave =>
    exact ⟨h.nodup, h.lt, fun record hm => h.aborted record (List.mem_of_mem_filter hm),
      h.counted⟩
  | prepare hr =>
    refine ⟨h.nodup, h.lt, h.aborted, ?_⟩
    simpa [hr, unreported] using h.counted
  | commit hr =>
    refine ⟨h.nodup, h.lt, h.aborted, ?_⟩
    simpa [hr, unreported] using h.counted
  | @reset next hr => exact h.reset hst next.snapshot (by rw [hr]; rfl)
  | finish hr =>
    refine ⟨h.nodup, h.lt, h.aborted, ?_⟩
    simpa [hr, unreported] using h.counted
  | _ => exact { h with }

/-! ## The registry follows the protocol -/

namespace TunnelRegistry

def workView (s : TunnelRegistry) : WorkView where
  authorization := s.authorization
  nextAlloc := s.nextAlloc
  replacement := s.replace.map ReplaceTask.replacement
  visitors t := (s.visitors t).map VisitorTask.progress
  nextVisitor := s.nextVisitor
  work := s.visitorWork.work
  nextStreamId := s.nextStreamId
  resets := s.resets
  reported := s.dispatches.map fun dispatch => dispatch.streamsReset

variable {s s' : TunnelRegistry} {task : VisitorTask}

theorem workView_setVisitor (s : TunnelRegistry) (t : Nat) (task : VisitorTask) :
    (s.setVisitor t task).workView = s.workView.setVisitor t task.progress := by
  have hv : (fun u => (Function.update s.visitors t (some task) u).map
        VisitorTask.progress) =
      Function.update (fun u => (s.visitors u).map VisitorTask.progress) t
        (some task.progress) :=
    Function.comp_update (Option.map VisitorTask.progress) s.visitors t (some task)
  simp only [workView, setVisitor, WorkView.setVisitor, hv]

theorem workView_visitors
    (h : s.visitors t = some task) : s.workView.visitors t = some task.progress := by
  simp [workView, h]

theorem workStep_of_replaceStep (h : ReplaceStep s s') :
    s'.workView = s.workView ∨ WorkStep s.workView s'.workView := by
  cases h with
  | lock hr | closePool hr | closed hr | takePool hr | rebuild hr | revoke hr | discard hr
  | adopt hr | push hr | unlock hr =>
    left
    simp only [workView, hr]
    rfl
  | commit hr | commitKeeping hr =>
    right
    exact .commit (v := s.workView) (by simp only [workView, hr]; rfl)
  | reset hr =>
    right
    exact .reset (v := s.workView) (by simp only [workView, hr]; rfl)
  | finish hr =>
    have := WorkStep.finish (v := s.workView) (by simp only [workView, hr]; rfl)
    simpa [workView] using this

theorem workStep_of_startVisitor (s : TunnelRegistry) (h : PublicHostname) :
    WorkStep s.workView (s.startVisitor h).workView := by
  unfold startVisitor
  dsimp only
  split
  · rw [workView_setVisitor]
    exact .enter (.inr rfl)
  · rw [workView_setVisitor]
    exact .enter (.inl rfl)

theorem workStep_of_dropAdmission
    (ht : s.visitors t = some task) (hn : ∀ work started, task.progress ≠ .working work started) :
    WorkStep s.workView (s.dropAdmission t).workView := by
  unfold dropAdmission
  rw [workView_setVisitor]
  exact .giveUp (v := s.workView) (workView_visitors ht) hn

theorem workStep_of_dropWork {work : ActiveVisitorWork}
    {started : Bool} (ht : s.workView.visitors t = some (.working work started)) :
    WorkStep s.workView (s.dropWork t work).workView := by
  unfold dropWork
  rw [workView_setVisitor]
  exact .leave ht

theorem workStep_of_registerActiveVisitorWork {h : PublicHostname}
    {route : VisitorRoute} (ht : s.visitors t = some (.routed h route)) :
    WorkStep s.workView (s.registerActiveVisitorWork t h route).workView := by
  unfold registerActiveVisitorWork
  split
  · exact workStep_of_dropAdmission ht (by simp [VisitorTask.progress])
  · next hok =>
    simp only [Bool.or_eq_true, Bool.not_eq_true', not_or, Bool.not_eq_false] at hok
    obtain ⟨-, hc⟩ := hok
    simp only [remainsCurrentAndAuthorized, Bool.and_eq_true, decide_eq_true_eq] at hc
    rw [workView_setVisitor]
    exact .register (v := s.workView) (workView_visitors ht) hc.1
      (streamRemainsAuthorized_iff.mp hc.2)

theorem not_aborted {id : Nat} (h : ¬ s.aborted id = true) :
    ∀ record ∈ s.visitorWork.work, record.streamId = id → record.abortRequested = false := by
  intro record hm hid
  cases ha : record.abortRequested with
  | false => rfl
  | true =>
    refine absurd (List.any_eq_true.mpr ⟨record, hm, ?_⟩) h
    simp [hid, ha]

theorem workStep_of_pollVisitor (h : s.pollVisitor t = some s') :
    s'.workView = s.workView ∨ WorkStep s.workView s'.workView := by
  unfold pollVisitor at h
  split at h
  · next host ht =>
    obtain ⟨lock, -, rfl⟩ := Option.map_eq_some_iff.mp h
    left
    rw [workView_setVisitor]
    have hv := workView_visitors ht
    exact WorkView.setVisitor_eq_self (v := s.workView) hv
  · next host ht =>
    right
    dsimp only at h
    split at h
    · cases h
      exact workStep_of_dropAdmission (s := { s with poolsLock := _ }) ht
        (by simp [VisitorTask.progress])
    · split at h
      · cases h
        exact workStep_of_dropAdmission (s := { s with poolsLock := _ }) ht
          (by simp [VisitorTask.progress])
      · cases h
        rw [workView_setVisitor]
        exact .route (v := s.workView) (workView_visitors ht)
  · next host authorization p ht =>
    dsimp only at h
    split at h
    · right
      cases h
      exact workStep_of_dropAdmission (s := s.setPool p _) ht (by simp [VisitorTask.progress])
    · left
      cases h
      rw [workView_setVisitor]
      have hv := workView_visitors ht
      exact WorkView.setVisitor_eq_self (v := s.workView) hv
  · next host route ht =>
    right
    cases h
    exact workStep_of_registerActiveVisitorWork ht
  · next work ht =>
    right
    split at h
    · cases h
      exact workStep_of_dropWork (workView_visitors ht)
    · next hna =>
      cases h
      rw [workView_setVisitor]
      exact .proxy (v := s.workView) (workView_visitors ht) (not_aborted hna)
  · next work ht =>
    right
    cases h
    exact workStep_of_dropWork (workView_visitors ht)
  · cases h
  · cases h

theorem workStep_of_dropVisitor (h : s.dropVisitor t = some s') :
    WorkStep s.workView s'.workView := by
  unfold dropVisitor at h
  split at h
  · next ht =>
    cases h
    exact workStep_of_dropAdmission ht (by simp [VisitorTask.progress])
  · next ht =>
    cases h
    exact workStep_of_dropAdmission ht (by simp [VisitorTask.progress])
  · next ht =>
    cases h
    exact workStep_of_dropAdmission ht (by simp [VisitorTask.progress])
  · next ht =>
    cases h
    exact workStep_of_dropWork (workView_visitors ht)
  · next ht =>
    cases h
    exact workStep_of_dropWork (workView_visitors ht)
  all_goals cases h

theorem workStep_of_step {a : Action} (h : system.step s a = some s') :
    s'.workView = s.workView ∨ WorkStep s.workView s'.workView := by
  cases a with
  | register c =>
    obtain ⟨_, _, _, heq⟩ := frame_startRegister s c
    cases h
    exact .inl (heq ▸ rfl)
  | pollRegister t =>
    obtain ⟨_, _, _, _, _, _, _, _, -, rfl⟩ := frame_pollRegister h
    exact .inl rfl
  | replaceAuthorization serverHostname tunnels =>
    obtain ⟨hr, rfl | ⟨snapshot, rfl⟩⟩ := startReplace_eq_some h
    · exact .inl rfl
    · exact .inr (.prepare (v := s.workView) (by simp [workView, hr]))
  | pollReplace => exact workStep_of_replaceStep (replaceStep_of_pollReplace h)
  | runWatcher w =>
    obtain ⟨_, _, _, rfl⟩ := frame_runWatcher h
    exact .inl rfl
  | runRelease c permit =>
    obtain ⟨-, ⟨⟩⟩ := Option.ite_some_none_eq_some.mp h
    exact .inl rfl
  | visitor host =>
    cases h
    exact .inr (workStep_of_startVisitor s host)
  | pollVisitor t => exact workStep_of_pollVisitor h
  | dropVisitor t => exact .inr (workStep_of_dropVisitor h)
  | pollCall t =>
    obtain ⟨_, _, _, -, rfl⟩ := frame_pollCall h
    exact .inl rfl
  | pollShutdown t c =>
    obtain ⟨_, _, _, _, -, rfl⟩ := frame_pollShutdown h
    exact .inl rfl
  | _ =>
    cases h
    exact .inl rfl

/-! ## Runs -/

/-- The invariants of the protocol. -/
structure WorkInv (v : WorkView) : Prop where
  snapshots : Snapshots v
  streams : Streams v
  granted : AllGranted v
  enforced : EnforcedUnlessCommitted v
  resets : ResetOnce v

theorem WorkInv.step (h : WorkInv v) (hs : WorkStep v w) : WorkInv w where
  snapshots := h.snapshots.step hs
  streams := h.streams.step hs
  granted := h.granted.step h.snapshots hs
  enforced := h.enforced.step h.snapshots hs
  resets := h.resets.step h.streams hs

theorem workInv_fromAuthorizationWithAdmission (snapshot : ManagedSnapshot)
    (limits : ServerAdmissionLimits) :
    WorkInv (fromAuthorizationWithAdmission snapshot limits).workView where
  snapshots := ⟨Nat.zero_lt_one, by rintro _ ⟨⟩, by rintro _ ⟨⟩, by rintro _ _ ⟨⟩⟩
  streams := ⟨by rintro _ _ ⟨⟩, by rintro _ _ _ _ _ _ ⟨⟩, by rintro _ _ _ ⟨⟩, List.nodup_nil,
    by rintro _ ⟨⟩⟩
  granted := by rintro _ _ _ ⟨⟩
  enforced := by rintro - _ ⟨⟩
  resets := ⟨List.nodup_nil, by rintro _ ⟨⟩, by rintro _ ⟨⟩, rfl⟩

/-- Visitor work keeps to its authorization. -/
structure WorkAuthorized (s : TunnelRegistry) : Prop where
  /-- A proxy future starts only for a record whose hostname and Client identity one
  Tunnel of the snapshot current at registration has, routed under that snapshot. -/
  starts : ∀ t work s', s.visitors t = some (.registered work) →
    s.pollVisitor t = some s' → s'.visitors t = some (.proxying work) →
    Granted work ∧ ∃ record ∈ s.visitorWork.work, record.IsOf work ∧ record.abortRequested = false
  /-- When no replacement is in progress, so whenever one has returned, the current
  snapshot authorizes every record that was not aborted. -/
  returned : s.replace = none → ∀ record ∈ s.visitorWork.work, record.abortRequested = false →
    Authorizes s.authorization.snapshot record.publicHostname record.clientIdentity
  /-- A stream is aborted at most once. -/
  once : s.resets.Nodup
  aborted : ∀ record ∈ s.visitorWork.work,
    record.abortRequested = true ↔ record.streamId ∈ s.resets
  /-- The aborts are those the calls that returned have counted. -/
  counted : s.replace = none →
    (s.dispatches.map fun dispatch => dispatch.streamsReset).sum = s.resets.length

theorem visitor_work_authorized (snapshot : ManagedSnapshot) (limits : ServerAdmissionLimits)
    (s : TunnelRegistry)
    (hrun : system.Reaches (fromAuthorizationWithAdmission snapshot limits) s) :
    s.WorkAuthorized := by
  have h : WorkInv s.workView := hrun.invariant_of_view (R := WorkStep)
    (fun _ _ _ _ hst => workStep_of_step hst) (fun _ _ hi hr => hi.step hr)
    (workInv_fromAuthorizationWithAdmission snapshot limits)
  refine ⟨?_, ?_, h.resets.nodup, h.resets.aborted, ?_⟩
  · intro t work s' ht hp hs
    have hv := workView_visitors ht
    obtain ⟨record, hm, hof⟩ := h.streams.has_record t work false hv
    refine ⟨h.granted t work false hv, record, hm, hof, ?_⟩
    -- A stream that was aborted is dropped instead.
    simp only [pollVisitor, ht] at hp
    split at hp
    · cases hp
      simp [dropWork, setVisitor] at hs
    · next hna => exact not_aborted hna record hm hof.1
  · intro hn
    exact h.enforced (by simp [workView, hn])
  · intro hn
    have hc := h.resets.counted
    simpa [workView, hn, unreported] using hc

/-- Two Visitors of Tunnel `a` are registered, one of them is proxied, and the Tunnel
is withdrawn: both streams are reset, each of them once. -/
theorem visitor_work_authorized_after_withdrawal :
    ∃ s, system.Reaches (fromAuthorizationWithAdmission .empty {}) s ∧ s.replace.isNone = true ∧
      s.resets = [1, 2] ∧ s.WorkAuthorized := by
  have he : ∃ s ∈ system.exec (fromAuthorizationWithAdmission .empty {})
        (replaceFor [sampleTunnel "a" [sampleIdentity 1]] 6 ++ registerFor (sampleIdentity 1) 0 ++
          .visitor ⟨"a.example.test"⟩ :: List.replicate 5 (.pollVisitor 0) ++
          .visitor ⟨"a.example.test"⟩ :: List.replicate 4 (.pollVisitor 1) ++ replaceFor [] 10),
      s.replace.isNone = true ∧ s.resets = [1, 2] := by
    decide
  obtain ⟨s, hs, hn, hr⟩ := he
  have hru := Lts.Reaches.of_exec hs
  exact ⟨s, hru, hn, hr, visitor_work_authorized _ _ s hru⟩

end TunnelRegistry

end Runewarp.Server
