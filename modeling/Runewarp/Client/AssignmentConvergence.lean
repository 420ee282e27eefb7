import Mathlib.Data.Finset.Card
import Mathlib.Data.List.AList
import Mathlib.Data.List.Induction
import Mathlib.Data.List.Sort
import Mathlib.Data.String.Basic
import Runewarp.Lib.Notify
import Runewarp.Names
import Runewarp.Tunnel.Generation

/-!
# Assignment convergence

`AssignmentConvergenceTracker` keeps what a managed Client knows of its assignment: which
addresses are assigned, which are connected, and which connections carry Visitor credit.
The three change independently.  An address that is no longer assigned keeps its place in
the other two, so that it counts again when it is assigned again.

Every method is one critical section of the tracker's mutex, and here one step.  A
`CarryingCredit` guard notifies the reporter after it has left the critical section, in its
creation and in its drop, so there the notification is a step of its own and others may
come between.  `assignment_facts_follow_calls` says what the tracker answers after any
run, and that no change of the report goes without a notification.
-/

namespace Runewarp.Client

open Server (ServerRuntimeGeneration)

inductive AssignmentConvergence where
  | unconverged
  | partiallyConverged
  | converged
deriving DecidableEq

def AssignmentConvergence.fromCounts (assigned connected : Nat) : AssignmentConvergence :=
  if assigned = 0 then .converged
  else if connected = 0 then .unconverged
  else if connected ≥ assigned then .converged
  else .partiallyConverged

structure ConvergenceState where
  assigned : Finset ServerAddress := ∅
  connected : Finset ServerAddress := ∅
  carryingCredit : AList fun _ : ServerAddress => List (UInt64 × ServerRuntimeGeneration) := ∅
  nextConnection : UInt64 := 0
deriving DecidableEq

namespace ConvergenceState

variable {s t : ConvergenceState} {a b : ServerAddress}

def assignedConnectedCount (s : ConvergenceState) : Nat :=
  (s.connected.filter (· ∈ s.assigned)).card

def current (s : ConvergenceState) : AssignmentConvergence :=
  .fromCounts s.assigned.card s.assignedConnectedCount

/-- `(next != previous).then_some(next)`. -/
def changedStatus (previous next : ConvergenceState) : Option AssignmentConvergence :=
  if next.current ≠ previous.current then some next.current else none

def setAssigned (s : ConvergenceState) (addresses : List ServerAddress) :
    Option AssignmentConvergence × ConvergenceState :=
  let next := { s with assigned := addresses.toFinset }
  (changedStatus s next, next)

def markConnected (s : ConvergenceState) (address : ServerAddress) :
    Option AssignmentConvergence × ConvergenceState :=
  let next := { s with connected := insert address s.connected }
  (changedStatus s next, next)

def markDisconnected (s : ConvergenceState) (address : ServerAddress) :
    Option AssignmentConvergence × ConvergenceState :=
  if address ∈ s.connected then
    let next := { s with connected := s.connected.erase address }
    (changedStatus s next, next)
  else (none, s)

/-- The connections of an address that carry credit. -/
def connections (s : ConvergenceState) (address : ServerAddress) :
    List (UInt64 × ServerRuntimeGeneration) :=
  (s.carryingCredit.lookup address).getD []

/-- The critical section of `carrying_credit`; the token is `next_connection`. -/
def addConnection (s : ConvergenceState) (address : ServerAddress)
    (generation : ServerRuntimeGeneration) : ConvergenceState :=
  { s with
    nextConnection := s.nextConnection + 1
    carryingCredit :=
      s.carryingCredit.insert address (s.connections address ++ [(s.nextConnection, generation)]) }

/-- The critical section of the drop of a `CarryingCredit`. -/
def removeConnection (s : ConvergenceState) (address : ServerAddress) (token : UInt64) :
    ConvergenceState :=
  match s.carryingCredit.lookup address with
  | none => s
  | some connections =>
    let kept := connections.filter fun connection => connection.1 ≠ token
    { s with
      carryingCredit :=
        if kept = [] then s.carryingCredit.erase address
        else s.carryingCredit.insert address kept }

/-- The generations of an address as they are reported. -/
def generations [Uuid.Library] (s : ConvergenceState) (address : ServerAddress) : List String :=
  ((s.connections address).map fun connection => connection.2.display).insertionSort (· ≤ ·)

/-- `reported_servers`, with the order in which the hash set is iterated. -/
def reportedServers [Uuid.Library] (s : ConvergenceState) (order : List ServerAddress) :
    String → Option (List String) :=
  order.foldl
    (fun report address => Function.update report address.display (some (s.generations address)))
    fun _ => none

/-- What `reported_servers` may return. -/
def Reports [Uuid.Library] (s : ConvergenceState) (report : String → Option (List String)) : Prop :=
  ∃ order : List ServerAddress,
    order.Nodup ∧ order.toFinset = s.assigned ∧ report = s.reportedServers order

/-! ## The status -/

theorem assignedConnectedCount_eq : s.assignedConnectedCount = (s.assigned ∩ s.connected).card := by
  rw [assignedConnectedCount, Finset.filter_mem_eq_inter, Finset.inter_comm]

theorem assignedConnectedCount_eq_zero :
    s.assignedConnectedCount = 0 ↔ ∀ a ∈ s.assigned, a ∉ s.connected := by
  rw [assignedConnectedCount_eq, Finset.card_eq_zero, ← Finset.disjoint_iff_inter_eq_empty,
    Finset.disjoint_left]

theorem assigned_card_le : s.assigned.card ≤ s.assignedConnectedCount ↔
    s.assigned ⊆ s.connected := by
  rw [assignedConnectedCount_eq]
  constructor
  · intro hle
    rw [← Finset.eq_of_subset_of_card_le Finset.inter_subset_left hle]
    exact Finset.inter_subset_right
  · intro hs
    rw [Finset.inter_eq_left.mpr hs]

theorem current_eq_converged : s.current = .converged ↔ s.assigned ⊆ s.connected := by
  have hle := s.assigned_card_le
  unfold current AssignmentConvergence.fromCounts
  split
  · next hz => simp [Finset.card_eq_zero.mp hz]
  · split
    · next hne hz => simp only [reduceCtorEq, false_iff, ← hle]; omega
    · split
      · next hge => simpa using hle.mp hge
      · next hlt => simp only [reduceCtorEq, false_iff, ← hle]; omega

theorem current_eq_unconverged :
    s.current = .unconverged ↔ s.assigned ≠ ∅ ∧ ∀ a ∈ s.assigned, a ∉ s.connected := by
  rw [← assignedConnectedCount_eq_zero, ne_eq, ← Finset.card_eq_zero]
  unfold current AssignmentConvergence.fromCounts
  split
  · next hz => simp [hz]
  · split
    · next hne hz => simp [hne, hz]
    · split <;> simp_all

/-- What the three methods that return a status have in common. -/
structure Answers (s : ConvergenceState) (r : Option AssignmentConvergence × ConvergenceState) :
    Prop where
  status : r.1 = changedStatus s r.2
  carryingCredit : r.2.carryingCredit = s.carryingCredit
  nextConnection : r.2.nextConnection = s.nextConnection

theorem answers_setAssigned (addresses : List ServerAddress) :
    s.Answers (s.setAssigned addresses) := ⟨rfl, rfl, rfl⟩

theorem answers_markConnected (a : ServerAddress) : s.Answers (s.markConnected a) :=
  ⟨rfl, rfl, rfl⟩

theorem answers_markDisconnected (a : ServerAddress) : s.Answers (s.markDisconnected a) := by
  unfold markDisconnected
  split
  · exact ⟨rfl, rfl, rfl⟩
  · exact ⟨by simp [changedStatus], rfl, rfl⟩

@[simp] theorem assigned_markDisconnected : (s.markDisconnected a).2.assigned = s.assigned := by
  unfold markDisconnected
  split <;> rfl

theorem mem_connected_markDisconnected :
    b ∈ (s.markDisconnected a).2.connected ↔ b ≠ a ∧ b ∈ s.connected := by
  unfold markDisconnected
  split
  · exact Finset.mem_erase
  · next ho =>
    refine ⟨fun hb => ⟨?_, hb⟩, And.right⟩
    rintro rfl
    exact ho hb

/-- A status is returned when it is new, and then it is the new one. -/
def AnswersChange (s : ConvergenceState)
    (r : Option AssignmentConvergence × ConvergenceState) : Prop :=
  ∀ status, r.1 = some status ↔ r.2.current ≠ s.current ∧ status = r.2.current

theorem Answers.change {r : Option AssignmentConvergence × ConvergenceState} (h : s.Answers r) :
    s.AnswersChange r := by
  intro status
  rw [h.status, changedStatus]
  split
  · next hne => simp [hne, eq_comm]
  · next heq => simp [not_not.mp heq]

/-! ## The connections of an address -/

@[simp] theorem connections_addConnection {generation : ServerRuntimeGeneration} :
    (s.addConnection a generation).connections b =
      if b = a then s.connections a ++ [(s.nextConnection, generation)] else s.connections b := by
  split
  · next heq =>
    subst heq
    simp [addConnection, connections]
  · next hne => simp [addConnection, connections, AList.lookup_insert_ne hne]

variable {token : UInt64}

@[simp] theorem connections_removeConnection : (s.removeConnection a token).connections b =
      if b = a then (s.connections a).filter fun connection => connection.1 ≠ token
      else s.connections b := by
  unfold removeConnection
  split
  · next hn =>
    split
    · next heq =>
      subst heq
      simp [connections, hn]
    · rfl
  · next before hs =>
    have hbe : s.connections a = before := by simp [connections, hs]
    rw [hbe]
    generalize before.filter (fun connection => connection.1 ≠ token) = kept
    dsimp only [connections]
    by_cases hb : b = a
    · subst hb
      split
      · next he => simp [he]
      · simp
    · rw [if_neg hb]
      split
      · rw [AList.lookup_erase_ne hb]
      · rw [AList.lookup_insert_ne hb]

@[simp] theorem assigned_removeConnection : (s.removeConnection a token).assigned = s.assigned := by
  unfold removeConnection
  split <;> rfl

@[simp] theorem connected_removeConnection :
    (s.removeConnection a token).connected = s.connected := by
  unfold removeConnection
  split <;> rfl

@[simp] theorem nextConnection_removeConnection :
    (s.removeConnection a token).nextConnection = s.nextConnection := by
  unfold removeConnection
  split <;> rfl

/-! ## The report -/

/-- The texts of two addresses differ, so no entry of the report replaces another and the
order does not matter. -/
theorem reportedServers_eq_some [Uuid.Library] {order : List ServerAddress} {key : String}
    {generations : List String} :
    s.reportedServers order key = some generations ↔
      ∃ a ∈ order, key = a.display ∧ generations = s.generations a := by
  induction order using List.reverseRecOn with
  | nil => simp [reportedServers]
  | append_singleton order last ih =>
    have hl : s.reportedServers (order ++ [last]) =
        Function.update (s.reportedServers order) last.display (some (s.generations last)) := by
      simp [reportedServers]
    rw [hl]
    by_cases hk : key = last.display
    · subst hk
      rw [Function.update_self, Option.some.injEq]
      constructor
      · intro h
        exact ⟨last, by simp, rfl, h.symm⟩
      · rintro ⟨a, -, hd, rfl⟩
        rw [ServerAddress.display_injective hd]
    · rw [Function.update_of_ne hk, ih]
      constructor
      · rintro ⟨a, ha, h⟩
        exact ⟨a, List.mem_append_left _ ha, h⟩
      · rintro ⟨a, ha, hd, h⟩
        rcases List.mem_append.mp ha with ha | ha
        · exact ⟨a, ha, hd, h⟩
        · rw [List.mem_singleton.mp ha] at hd
          exact (hk hd).elim

theorem Reports.eq_some [Uuid.Library] {report : String → Option (List String)}
    (h : s.Reports report)
    {key : String} {generations : List String} :
    report key = some generations ↔
      ∃ a ∈ s.assigned, key = a.display ∧ generations = s.generations a := by
  obtain ⟨order, -, ha, rfl⟩ := h
  rw [reportedServers_eq_some, ← ha]
  simp

/-- The report depends on the assigned addresses and on their connections only. -/
theorem Reports.eq [Uuid.Library] {report report' : String → Option (List String)}
    (h : s.Reports report)
    (h' : t.Reports report') (ha : t.assigned = s.assigned)
    (hc : t.carryingCredit = s.carryingCredit) : report' = report := by
  have hg : t.generations = s.generations := by
    funext a
    simp only [generations, connections, hc]
  funext key
  apply Option.ext
  intro generations
  rw [h.eq_some, h'.eq_some, ha, hg]

end ConvergenceState

/-! ## Runs of a tracker -/

/-- Where a `CarryingCredit` is: `carrying_credit` has yet to notify, it is held, its drop
has yet to notify, and gone. -/
inductive GuardPhase where
  | creating
  | held
  | dropping
  | dropped
deriving DecidableEq

namespace GuardPhase

/-- The connection is recorded. -/
def isLive : GuardPhase → Bool
  | .creating | .held => true
  | .dropping | .dropped => false

/-- A call has left its critical section and not yet notified. -/
def owes : GuardPhase → Bool
  | .creating | .dropping => true
  | .held | .dropped => false

/-- After the notification. -/
def notified : GuardPhase → GuardPhase
  | .creating | .held => .held
  | .dropping | .dropped => .dropped

@[simp] theorem isLive_notified (p : GuardPhase) : p.notified.isLive = p.isLive := by
  cases p <;> rfl

end GuardPhase

/-- A guard, with the generation it was made for. -/
structure CarryingCredit where
  address : ServerAddress
  token : UInt64
  generation : ServerRuntimeGeneration
  phase : GuardPhase
deriving DecidableEq

/-- An `AssignmentConvergenceTracker` and what was done with it.  `guards` are all guards
ever made, `statuses` the statuses returned, the last one first; `notifications` and
`wakes` count the notifications and the times the reporter was woken. -/
structure TrackerRun where
  inner : ConvergenceState := {}
  reportedStateChanged : Notify := {}
  guards : List CarryingCredit := []
  statuses : List AssignmentConvergence := []
  notifications : Nat := 0
  wakes : Nat := 0
deriving DecidableEq

namespace TrackerRun

inductive Action where
  | setAssigned (addresses : List ServerAddress)
  | markConnected (address : ServerAddress)
  | markDisconnected (address : ServerAddress)
  | carryingCredit (address : ServerAddress) (generation : ServerRuntimeGeneration)
  | drop (i : Nat)
  /-- `notify_one` of the guard that is made or dropped. -/
  | notify (i : Nat)
  /-- The reporter polls `notified`. -/
  | poll
  /-- The reporter drops `notified`. -/
  | dropWaiter
deriving DecidableEq

def notifyOne (s : TrackerRun) : TrackerRun :=
  { s with
    reportedStateChanged := s.reportedStateChanged.notifyOne
    notifications := s.notifications + 1 }

def answered (s : TrackerRun) (r : Option AssignmentConvergence × ConvergenceState) :
    TrackerRun :=
  { s with inner := r.2, statuses := r.1.toList ++ s.statuses }

def addGuard (s : TrackerRun) (address : ServerAddress) (generation : ServerRuntimeGeneration) :
    TrackerRun :=
  { s with
    inner := s.inner.addConnection address generation
    guards := s.guards ++ [⟨address, s.inner.nextConnection, generation, .creating⟩] }

def setPhase (s : TrackerRun) (i : Nat) (guard : CarryingCredit) (phase : GuardPhase) :
    TrackerRun :=
  { s with guards := s.guards.set i { guard with phase := phase } }

def removeGuard (s : TrackerRun) (i : Nat) (guard : CarryingCredit) : TrackerRun :=
  { s.setPhase i guard .dropping with
    inner := s.inner.removeConnection guard.address guard.token }

def polled (s : TrackerRun) : TrackerRun :=
  { s with
    reportedStateChanged := s.reportedStateChanged.poll.2
    wakes := if s.reportedStateChanged.poll.1 then s.wakes + 1 else s.wakes }

def step (s : TrackerRun) : Action → Option TrackerRun
  | .setAssigned addresses => some (s.answered (s.inner.setAssigned addresses)).notifyOne
  | .markConnected address => some (s.answered (s.inner.markConnected address))
  | .markDisconnected address => some (s.answered (s.inner.markDisconnected address))
  | .carryingCredit address generation => some (s.addGuard address generation)
  | .drop i =>
    match s.guards[i]? with
    | some guard => if guard.phase = .held then some (s.removeGuard i guard) else none
    | none => none
  | .notify i =>
    match s.guards[i]? with
    | some guard =>
      if guard.phase.owes then some (s.setPhase i guard guard.phase.notified).notifyOne
      else none
    | none => none
  | .poll => some s.polled
  | .dropWaiter =>
    some { s with reportedStateChanged := s.reportedStateChanged.dropWaiter }

def system : Lts TrackerRun Action := ⟨step⟩

/-! ## What a run says -/

/-- The addresses of the last `set_assigned`. -/
def lastAssigned (acts : List Action) : List ServerAddress :=
  acts.foldl (fun assigned act =>
    match act with
    | .setAssigned addresses => addresses
    | _ => assigned) []

/-- The last mark of an address is that it is connected. -/
def isMarked (address : ServerAddress) (acts : List Action) : Bool :=
  acts.foldl (fun marked act =>
    match act with
    | .markConnected a => if a = address then true else marked
    | .markDisconnected a => if a = address then false else marked
    | _ => marked) false

/-- The guards of an address whose connections are recorded. -/
def liveGuards (s : TrackerRun) (address : ServerAddress) : List CarryingCredit :=
  s.guards.filter fun guard => guard.phase.isLive && guard.address = address

/-- A read of the report before and one after differ. -/
def ReportChanges [Uuid.Library] (s t : TrackerRun) : Prop :=
  ∃ report report', s.inner.Reports report ∧ t.inner.Reports report' ∧ report ≠ report'

/-- A notification was sent since, and it is there until the reporter wakes. -/
def NotifiedSince (s t : TrackerRun) : Prop :=
  s.notifications < t.notifications ∧
    (t.wakes = s.wakes → t.reportedStateChanged.isHeld = true)

/-- The call for the guard at `i` has yet to notify. -/
def Owes (s : TrackerRun) (i : Nat) : Prop :=
  ∃ guard, s.guards[i]? = some guard ∧ guard.phase.owes = true

/-! ## One step -/

/-- What a step can do. -/
inductive Moves (s : TrackerRun) : Action → TrackerRun → Prop where
  | setAssigned (addresses : List ServerAddress) :
      Moves s (.setAssigned addresses) (s.answered (s.inner.setAssigned addresses)).notifyOne
  | markConnected (address : ServerAddress) :
      Moves s (.markConnected address) (s.answered (s.inner.markConnected address))
  | markDisconnected (address : ServerAddress) :
      Moves s (.markDisconnected address) (s.answered (s.inner.markDisconnected address))
  | carryingCredit (address : ServerAddress) (generation : ServerRuntimeGeneration) :
      Moves s (.carryingCredit address generation) (s.addGuard address generation)
  | drop {i : Nat} {guard : CarryingCredit} :
      s.guards[i]? = some guard → guard.phase = .held →
      Moves s (.drop i) (s.removeGuard i guard)
  | notify {i : Nat} {guard : CarryingCredit} :
      s.guards[i]? = some guard → guard.phase.owes = true →
      Moves s (.notify i) (s.setPhase i guard guard.phase.notified).notifyOne
  | poll : Moves s .poll s.polled
  | dropWaiter :
      Moves s .dropWaiter
        { s with reportedStateChanged := s.reportedStateChanged.dropWaiter }

variable {s t u : TrackerRun} {act : Action} {acts : List Action} {a : ServerAddress} {i : Nat}

theorem moves_of_step (h : system.step s act = some t) : Moves s act t := by
  cases act with
  | drop i =>
    simp only [system, step] at h
    split at h
    · next hg =>
      split at h
      · next hh =>
        cases h
        exact .drop hg hh
      · cases h
    · cases h
  | notify i =>
    simp only [system, step] at h
    split at h
    · next hg =>
      split at h
      · next ho =>
        cases h
        exact .notify hg ho
      · cases h
    · cases h
  | _ =>
    cases h
    constructor

/-! ## Assigned and marked addresses -/

theorem assigned_eq (h : system.exec {} acts = some t) :
    t.inner.assigned = (lastAssigned acts).toFinset := by
  refine Lts.exec_foldl (R := fun s (xs : List ServerAddress) =>
    s.inner.assigned = xs.toFinset) (x := []) ?_ rfl h
  intro s act t xs hs hst
  cases moves_of_step hst with
  | setAssigned => rfl
  | markDisconnected => exact ConvergenceState.assigned_markDisconnected.trans hs
  | drop => exact ConvergenceState.assigned_removeConnection.trans hs
  | _ => exact hs

theorem mem_connected_iff (h : system.exec {} acts = some t) :
    a ∈ t.inner.connected ↔ isMarked a acts = true := by
  refine Lts.exec_foldl (R := fun s b => a ∈ s.inner.connected ↔ b = true) (x := false) ?_
    (by simp) h
  intro s act t marked hs hst
  cases moves_of_step hst with
  | markConnected b =>
    dsimp only
    split
    · next heq =>
      subst heq
      simp [answered, ConvergenceState.markConnected]
    · next hne =>
      rw [← hs]
      simp [answered, ConvergenceState.markConnected, Ne.symm hne]
  | markDisconnected b =>
    refine ConvergenceState.mem_connected_markDisconnected.trans ?_
    dsimp only
    split
    · next heq => simp [heq]
    · next hne => simp [hs, Ne.symm hne]
  | drop =>
    refine Iff.trans ?_ hs
    simp [removeGuard, setPhase]
  | _ => exact hs

/-! ## Returned statuses -/

/-- The status that was returned last, and before the first one that of an empty
assignment, is the current one. -/
def Reported (s : TrackerRun) : Prop := s.statuses.head?.getD .converged = s.inner.current

theorem Reported.answered {r : Option AssignmentConvergence × ConvergenceState}
    (h : s.Reported) (hr : s.inner.Answers r) : (s.answered r).Reported := by
  unfold Reported TrackerRun.answered at *
  rw [hr.status, ConvergenceState.changedStatus]
  split
  · rfl
  · next heq => simpa [not_not.mp heq] using h

theorem Reported.step (h : s.Reported) (hs : system.step s act = some t) : t.Reported := by
  cases moves_of_step hs with
  | setAssigned addresses => exact h.answered (s.inner.answers_setAssigned addresses)
  | markConnected a => exact h.answered (s.inner.answers_markConnected a)
  | markDisconnected a => exact h.answered (s.inner.answers_markDisconnected a)
  | drop =>
    refine h.trans ?_
    simp [removeGuard, setPhase, ConvergenceState.current,
      ConvergenceState.assignedConnectedCount]
  | _ => exact h

/-! ## Guards and their connections -/

section Slots

variable {α β : Type} {l : List α} {p q : α → Bool} {f : α → β} {x y : α}

theorem filter_set_of_false (hp : p y = false)
    (hq : ∀ j z, l[j]? = some z → (q z = true ↔ j ≠ i)) :
    (l.set i y).filter p = (l.filter p).filter q := by
  induction l generalizing i with
  | nil => rfl
  | cons z zs ih =>
    cases i with
    | zero =>
      have hz : q z = false := by simpa using hq 0 z rfl
      have hzs : ∀ w ∈ zs.filter p, q w = true := by
        intro w hw
        obtain ⟨j, hj⟩ := List.mem_iff_getElem?.mp (List.mem_of_mem_filter hw)
        exact (hq (j + 1) w hj).mpr (by omega)
      rw [List.set_cons_zero, List.filter_cons_of_neg (by simp [hp]), List.filter_cons]
      split
      · rw [List.filter_cons_of_neg (by simp [hz]), List.filter_eq_self.mpr hzs]
      · rw [List.filter_eq_self.mpr hzs]
    | succ i =>
      have hz : q z = true := (hq 0 z rfl).mpr (by omega)
      have hr := ih fun j w hw => by simpa using hq (j + 1) w hw
      simp only [List.set_cons_succ, List.filter_cons, hr]
      split <;> simp [hz]

theorem map_filter_set_of_eq (hx : l[i]? = some x) (hp : p y = p x)
    (hf : p x = true → f y = f x) :
    ((l.set i y).filter p).map f = (l.filter p).map f := by
  induction l generalizing i with
  | nil => rfl
  | cons z zs ih =>
    cases i with
    | zero =>
      obtain rfl : z = x := by simpa using hx
      simp only [List.set_cons_zero, List.filter_cons, hp]
      split
      · next hpx => simp [hf hpx]
      · rfl
    | succ i =>
      have hr := ih (by simpa using hx)
      simp only [List.set_cons_succ, List.filter_cons]
      split <;> simp [hr]

end Slots

/-- Tokens are counted up, and as long as none is given twice the connections of an address
are those of its live guards. -/
structure Tracks (s : TrackerRun) : Prop where
  next : s.inner.nextConnection = UInt64.ofNat s.guards.length
  token : ∀ i guard, s.guards[i]? = some guard → guard.token = UInt64.ofNat i
  connections : s.guards.length ≤ 2 ^ 64 → ∀ a,
    s.inner.connections a = (s.liveGuards a).map fun guard => (guard.token, guard.generation)

theorem Tracks.addGuard (h : s.Tracks) (a : ServerAddress) (generation : ServerRuntimeGeneration) :
    (s.addGuard a generation).Tracks := by
  refine ⟨?_, ?_, ?_⟩
  · simp [TrackerRun.addGuard, ConvergenceState.addConnection, h.next]
  · intro i guard hg
    rcases Nat.lt_or_ge i s.guards.length with hi | hi
    · rw [TrackerRun.addGuard, List.getElem?_append_left hi] at hg
      exact h.token i guard hg
    · rw [TrackerRun.addGuard, List.getElem?_append_right hi] at hg
      rw [List.getElem?_singleton] at hg
      split at hg
      · cases hg
        rw [h.next, show i = s.guards.length by omega]
      · cases hg
  · intro hl b
    have hb := h.connections (by simp [TrackerRun.addGuard] at hl; omega)
    simp only [TrackerRun.addGuard, ConvergenceState.connections_addConnection, hb, liveGuards,
      List.filter_append, List.map_append]
    split
    · next heq => simp [heq, GuardPhase.isLive]
    · next hne => simp [Ne.symm hne, GuardPhase.isLive]

variable {guard : CarryingCredit}

theorem Tracks.token_set (h : s.Tracks) (hg : s.guards[i]? = some guard) (phase : GuardPhase) :
    ∀ j other, (s.setPhase i guard phase).guards[j]? = some other →
      other.token = UInt64.ofNat j := by
  intro j other ho
  rw [setPhase, List.getElem?_set] at ho
  split at ho
  · next heq =>
    subst heq
    split at ho
    · cases ho
      exact h.token i guard hg
    · cases ho
  · exact h.token j other ho

theorem Tracks.removeGuard (h : s.Tracks) (hg : s.guards[i]? = some guard) :
    (s.removeGuard i guard).Tracks := by
  refine ⟨?_, h.token_set hg .dropping, ?_⟩
  · simpa [TrackerRun.removeGuard, setPhase] using h.next
  · intro hl b
    have hl : s.guards.length ≤ 2 ^ 64 := by
      simpa [TrackerRun.removeGuard, setPhase] using hl
    -- No other guard has the token.
    have ho : ∀ j other, s.guards[j]? = some other →
        (decide (other.token ≠ guard.token) = true ↔ j ≠ i) := by
      intro j other hj
      have hjl := (List.getElem?_eq_some_iff.mp hj).1
      have hi := (List.getElem?_eq_some_iff.mp hg).1
      rw [h.token i guard hg, h.token j other hj, decide_eq_true_iff, ne_eq, ne_eq,
        ← UInt64.toNat_inj, UInt64.toNat_ofNat', UInt64.toNat_ofNat']
      rw [Nat.mod_eq_of_lt (by omega), Nat.mod_eq_of_lt (by omega)]
    simp only [TrackerRun.removeGuard, ConvergenceState.connections_removeConnection,
      h.connections hl]
    split
    · next heq =>
      subst heq
      rw [List.filter_map]
      exact congrArg _ (filter_set_of_false rfl ho).symm
    · next hne =>
      have ha : guard.address ≠ b := Ne.symm hne
      exact (map_filter_set_of_eq hg (by simp [ha]) (by simp [ha])).symm

theorem Tracks.notified (h : s.Tracks) (hg : s.guards[i]? = some guard) :
    (s.setPhase i guard guard.phase.notified).notifyOne.Tracks := by
  refine ⟨?_, h.token_set hg _, ?_⟩
  · simpa [setPhase, notifyOne] using h.next
  · intro hl b
    have hl : s.guards.length ≤ 2 ^ 64 := by simpa [setPhase, notifyOne] using hl
    refine (h.connections hl b).trans ?_
    refine (map_filter_set_of_eq hg ?_ ?_).symm
    · simp
    · exact fun _ => rfl

theorem Tracks.answered {r : Option AssignmentConvergence × ConvergenceState} (h : s.Tracks)
    (hr : s.inner.Answers r) : (s.answered r).Tracks := by
  refine ⟨hr.nextConnection.trans h.next, h.token, fun hl b => ?_⟩
  refine Eq.trans ?_ (h.connections hl b)
  simp only [ConvergenceState.connections, TrackerRun.answered, hr.carryingCredit]

theorem Tracks.step (h : s.Tracks) (hs : system.step s act = some t) : t.Tracks := by
  cases moves_of_step hs with
  | setAssigned addresses =>
    have ha := h.answered (s.inner.answers_setAssigned addresses)
    exact ⟨ha.next, ha.token, ha.connections⟩
  | markConnected a => exact h.answered (s.inner.answers_markConnected a)
  | markDisconnected a => exact h.answered (s.inner.answers_markDisconnected a)
  | carryingCredit a generation => exact h.addGuard a generation
  | drop hg => exact h.removeGuard hg
  | notify hg => exact h.notified hg
  | _ => exact ⟨h.next, h.token, h.connections⟩

/-- The reported generations of an address are those of its live guards. -/
theorem Tracks.generations [Uuid.Library] (h : s.Tracks) (hf : s.guards.length < 2 ^ 64)
    {generations : List String} :
    generations = s.inner.generations a ↔
      generations.Pairwise (· ≤ ·) ∧
        generations.Perm ((s.liveGuards a).map fun guard => guard.generation.display) := by
  have hl : (s.inner.connections a).map (fun connection => connection.2.display) =
      (s.liveGuards a).map fun guard => guard.generation.display := by
    rw [h.connections (Nat.le_of_lt hf), List.map_map]
    rfl
  have hs : (s.inner.generations a).Pairwise (· ≤ ·) := List.pairwise_insertionSort _ _
  have hp : (s.inner.generations a).Perm
      ((s.liveGuards a).map fun guard => guard.generation.display) := by
    rw [← hl]
    exact List.perm_insertionSort _ _
  constructor
  · rintro rfl
    exact ⟨hs, hp⟩
  · rintro ⟨hs', hp'⟩
    exact (hp'.trans hp.symm).eq_of_pairwise' hs' hs

/-! ## Notifications -/

theorem notifiedSince_notifyOne (hle : s.notifications ≤ t.notifications) :
    NotifiedSince s t.notifyOne :=
  ⟨Nat.lt_succ_of_le hle, fun _ => Notify.isHeld_notifyOne _⟩

/-- What holds after a change, until the reporter is told and from then on. -/
structure Tells (s : TrackerRun) (i : Nat) (t : TrackerRun) : Prop where
  notifications : s.notifications ≤ t.notifications
  wakes : s.wakes ≤ t.wakes
  told : NotifiedSince s t ∨ t.Owes i

theorem Owes.set {j : Nat} (h : t.Owes i) (hg : t.guards[j]? = some guard)
    (hh : guard.phase = .held) : (t.removeGuard j guard).Owes i := by
  obtain ⟨owing, how, ho⟩ := h
  have hne : j ≠ i := by
    rintro rfl
    cases hg.symm.trans how
    rw [hh] at ho
    cases ho
  exact ⟨owing, (List.getElem?_set_ne hne).trans how, ho⟩

theorem Owes.append (h : t.Owes i) (a : ServerAddress) (generation : ServerRuntimeGeneration) :
    (t.addGuard a generation).Owes i := by
  obtain ⟨owing, ho, how⟩ := h
  have hi := (List.getElem?_eq_some_iff.mp ho).1
  exact ⟨owing, (List.getElem?_append_left hi).trans ho, how⟩

theorem NotifiedSince.polled (h : NotifiedSince s t) (hle : s.wakes ≤ t.wakes) :
    NotifiedSince s t.polled := by
  refine ⟨h.1, fun hw => ?_⟩
  simp only [TrackerRun.polled] at hw ⊢
  split at hw
  · omega
  · next hr =>
    rw [Notify.isHeld_poll _ (by simpa using hr)]
    exact h.2 hw

theorem Tells.step (h : Tells s i t) (hs : system.step t act = some u) : Tells s i u := by
  obtain ⟨hn, hwa, ht⟩ := h
  cases moves_of_step hs with
  | setAssigned | notify =>
    exact ⟨Nat.le_succ_of_le hn, hwa,
      .inl (notifiedSince_notifyOne hn)⟩
  | carryingCredit a generation =>
    exact ⟨hn, hwa, ht.imp_right fun h => h.append a generation⟩
  | drop hg hh =>
    exact ⟨hn, hwa, ht.imp_right fun h => h.set hg hh⟩
  | poll =>
    refine ⟨hn, ?_, ht.imp_left fun h => h.polled hwa⟩
    simp only [TrackerRun.polled]
    split <;> omega
  | dropWaiter =>
    refine ⟨hn, hwa, ht.imp_left fun h => ⟨h.1, fun hw => ?_⟩⟩
    exact (Notify.isHeld_dropWaiter _).trans (h.2 hw)
  | _ => exact ⟨hn, hwa, ht⟩

/-- A step that changes the report tells the reporter, or leaves a call that will. -/
theorem tells_of_change [Uuid.Library] (hst : system.step s act = some t) (hc : ReportChanges s t) :
    ∃ i, Tells s i t := by
  have hs : t.inner.assigned = s.inner.assigned →
      t.inner.carryingCredit = s.inner.carryingCredit → ∃ i, Tells s i t := by
    intro ha hcr
    obtain ⟨report, report', hr, hr', hne⟩ := hc
    exact (hne (hr.eq hr' ha hcr).symm).elim
  cases moves_of_step hst with
  | setAssigned | notify =>
    exact ⟨0, Nat.le_succ _, le_rfl, .inl (notifiedSince_notifyOne le_rfl)⟩
  | markDisconnected a =>
    exact hs ConvergenceState.assigned_markDisconnected
      (s.inner.answers_markDisconnected a).carryingCredit
  | carryingCredit a generation =>
    exact ⟨s.guards.length, le_rfl, le_rfl,
      .inr ⟨_, List.getElem?_concat_length, rfl⟩⟩
  | @drop i guard hg hh =>
    have hi := (List.getElem?_eq_some_iff.mp hg).1
    exact ⟨i, le_rfl, le_rfl, .inr ⟨_, List.getElem?_set_self hi, rfl⟩⟩
  | _ => exact hs rfl rfl

theorem Owes.notify (h : s.Owes i) :
    ∃ t, system.step s (.notify i) = some t ∧ NotifiedSince s t := by
  obtain ⟨guard, hg, ho⟩ := h
  refine ⟨(s.setPhase i guard guard.phase.notified).notifyOne, ?_,
    notifiedSince_notifyOne le_rfl⟩
  simp [system, step, hg, ho]

/-! ## The facts after a run -/

theorem exists_reports [Uuid.Library] (s : ConvergenceState) : ∃ report, s.Reports report :=
  ⟨_, s.assigned.toList, s.assigned.nodup_toList, s.assigned.toList_toFinset, rfl⟩

/-- What the tracker answers after the calls `acts`. -/
structure FollowsCalls [Uuid.Library] (acts : List Action) (s : TrackerRun) : Prop where
  /-- `reported_servers` has the assigned addresses, each with the sorted generations of its
  live guards. -/
  report : ∀ report, s.inner.Reports report → ∀ key generations,
    report key = some generations ↔ ∃ a ∈ lastAssigned acts, key = a.display ∧
      generations.Pairwise (· ≤ ·) ∧
      generations.Perm ((s.liveGuards a).map fun guard => guard.generation.display)
  reports : ∃ report, s.inner.Reports report
  converged : s.inner.current = .converged ↔ ∀ a ∈ lastAssigned acts, isMarked a acts = true
  unconverged : s.inner.current = .unconverged ↔
    lastAssigned acts ≠ [] ∧ ∀ a ∈ lastAssigned acts, isMarked a acts = false
  setAssigned : ∀ addresses, s.inner.AnswersChange (s.inner.setAssigned addresses)
  markConnected : ∀ a, s.inner.AnswersChange (s.inner.markConnected a)
  markDisconnected : ∀ a, s.inner.AnswersChange (s.inner.markDisconnected a)
  /-- The status returned last is the current one. -/
  status : s.statuses.head?.getD .converged = s.inner.current
  /-- From a change on, either a notification was sent after it, or one and the same call has
  yet to send it. -/
  notified : ∀ act t, system.step s act = some t → ReportChanges s t →
    ∃ i, ∀ u, system.Reaches t u → NotifiedSince s u ∨ u.Owes i
  /-- A call that has yet to notify can do so, whatever the others do. -/
  owed : ∀ i, s.Owes i → ∃ t, system.step s (.notify i) = some t ∧ NotifiedSince s t

/-- The facts of the Client's assignment after any calls, in any order. -/
theorem assignment_facts_follow_calls [Uuid.Library] (hrun : system.exec {} acts = some s)
    (hfew : s.guards.length < 2 ^ 64) : FollowsCalls acts s := by
  have hr : system.Reaches {} s := .of_exec hrun
  have ht : s.Tracks :=
    hr.invariant (fun _ _ _ h _ hs => h.step hs) ⟨rfl, by simp, fun _ _ => rfl⟩
  have hst : s.Reported :=
    hr.invariant (fun _ _ _ h _ hs => h.step hs) rfl
  have ha : ∀ a, a ∈ s.inner.assigned ↔ a ∈ lastAssigned acts := by
    intro a
    rw [assigned_eq hrun, List.mem_toFinset]
  constructor
  case report =>
    intro report hre key generations
    rw [hre.eq_some]
    simp only [ha, ht.generations hfew]
  case reports => exact exists_reports s.inner
  case converged =>
    rw [ConvergenceState.current_eq_converged]
    simp only [Finset.subset_iff, ha, mem_connected_iff hrun]
  case unconverged =>
    rw [ConvergenceState.current_eq_unconverged, assigned_eq hrun, ne_eq,
      List.toFinset_eq_empty_iff]
    simp only [List.mem_toFinset, mem_connected_iff hrun, Bool.not_eq_true, ne_eq]
  case setAssigned => exact fun addresses => (s.inner.answers_setAssigned addresses).change
  case markConnected => exact fun a => (s.inner.answers_markConnected a).change
  case markDisconnected => exact fun a => (s.inner.answers_markDisconnected a).change
  case status => exact hst
  case notified =>
    intro act t hs hc
    obtain ⟨i, hte⟩ := tells_of_change hs hc
    refine ⟨i, fun u hu => ?_⟩
    exact (hu.invariant (I := Tells s i) (fun _ _ _ h _ hs => h.step hs) hte).told
  case owed => exact fun i ho => ho.notify

/-- Two addresses, one of them connected, with a guard that is dropped and one that is not. -/
def sampleCalls : List Action :=
  let a : ServerAddress := ⟨⟨"a.example"⟩, 443⟩
  let b : ServerAddress := ⟨⟨"b.example"⟩, 443⟩
  [.setAssigned [a, b], .markConnected a, .carryingCredit a ⟨1⟩, .carryingCredit a ⟨2⟩, .notify 0,
    .poll, .drop 0]

theorem assignment_facts_follow_calls_sample :
    letI := Uuid.plainLibrary
    ∃ s, system.exec {} sampleCalls = some s ∧ s.guards.length < 2 ^ 64 ∧
      s.inner.current = .partiallyConverged ∧ s.Owes 0 ∧ FollowsCalls sampleCalls s := by
  let _ := Uuid.plainLibrary
  have he : ∃ s ∈ system.exec {} sampleCalls, s.guards.length = 2 ∧
      s.inner.current = .partiallyConverged ∧ (s.guards.map (·.phase))[0]? = some .dropping := by
    decide
  obtain ⟨s, hs, hl, hc, hp⟩ := he
  have hf : s.guards.length < 2 ^ 64 := by omega
  refine ⟨s, hs, hf, hc, ?_, assignment_facts_follow_calls hs hf⟩
  rw [List.getElem?_map, Option.map_eq_some_iff] at hp
  obtain ⟨guard, hg, hp⟩ := hp
  exact ⟨guard, hg, by rw [hp]; rfl⟩

end TrackerRun

end Runewarp.Client
