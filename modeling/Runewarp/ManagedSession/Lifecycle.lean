import Runewarp.Basic
import Runewarp.Lib.Lts

/-!
# The connection lifecycle of a Managed session

A Managed session holds one connection to Control at a time.  The connection
delivers snapshots, each a revision with a role input.  The lifecycle applies
the newest one through a role adapter, one apply at a time, and reports the
revision it applied.  The applied revision is the only thing that outlives a
connection.

The role stays a parameter: `V` is the raw input of a snapshot, `I` the
validated one, and `parseInput` the adapter's validation between them.  The
apply itself is the environment's: the action `applyReturns` resolves it.  One
action is one turn of the source's loops between two awaits, and reads the
clock of the session.
-/

namespace Runewarp.ManagedSession

/-- Milliseconds on the session's clock. -/
abbrev Instant := Nat

abbrev Revision := String

/-! ## Timing -/

def firstSnapshotDeadline : Nat := 60000

def silenceTimeout : Nat := 60000

def stateRequestSpacing : Nat := 1000

structure SessionDeadlines where
  firstSnapshotDeadline : Instant
  silenceDeadline : Instant
  receivedFirstSnapshot : Bool
  deriving DecidableEq

namespace SessionDeadlines

def new (now : Instant) : SessionDeadlines :=
  ⟨now + ManagedSession.firstSnapshotDeadline, now + silenceTimeout, false⟩

def noteBytes (d : SessionDeadlines) (now : Instant) : SessionDeadlines :=
  { d with silenceDeadline := now + silenceTimeout }

/-- `none` when the first snapshot comes at or after its deadline. -/
def tryNoteValidSnapshot (d : SessionDeadlines) (now : Instant) : Option SessionDeadlines :=
  if d.receivedFirstSnapshot = false ∧ d.firstSnapshotDeadline ≤ now then none
  else some ({ d with receivedFirstSnapshot := true }.noteBytes now)

def expired (d : SessionDeadlines) (now : Instant) : Prop :=
  (d.receivedFirstSnapshot = false ∧ d.firstSnapshotDeadline ≤ now) ∨ d.silenceDeadline ≤ now

instance (d : SessionDeadlines) (now : Instant) : Decidable (d.expired now) :=
  inferInstanceAs (Decidable (_ ∨ _))

def nextDeadline (d : SessionDeadlines) : Instant :=
  if d.receivedFirstSnapshot then d.silenceDeadline
  else min d.firstSnapshotDeadline d.silenceDeadline

/-- The instant at which the sleep chosen by `next_wait` ends. -/
def nextWait (d : SessionDeadlines) (now : Instant) : Instant :=
  if d.nextDeadline ≤ now then now + 1 else d.nextDeadline

end SessionDeadlines

/-! ## Reconciliation -/

/-- The last revision applied, kept in memory across connections. -/
structure AppliedRevision where
  revision : Option Revision := none
  deriving DecidableEq

namespace AppliedRevision

def matchesRevision (a : AppliedRevision) (revision : Revision) : Bool :=
  a.revision = some revision

def set (_ : AppliedRevision) (revision : Revision) : AppliedRevision :=
  ⟨some revision⟩

@[simp] theorem matchesRevision_iff {a : AppliedRevision} {revision : Revision} :
    a.matchesRevision revision = true ↔ a.revision = some revision := by
  simp [matchesRevision]

end AppliedRevision

/-- A validated snapshot, ready to be applied. -/
structure QueuedSnapshot (I : Type) where
  revision : Revision
  input : I
  deriving DecidableEq

/-- At most one candidate waits while an apply is in flight. -/
structure SnapshotQueue (I : Type) where
  pending : Option (QueuedSnapshot I) := none
  applying : Bool := false
  deriving DecidableEq

namespace SnapshotQueue

variable {I : Type}

/-- Retain the newest candidate.  Returns the revision it supersedes. -/
def note (q : SnapshotQueue I) (snapshot : QueuedSnapshot I) :
    Option Revision × SnapshotQueue I :=
  (q.pending.map fun p => p.revision, { q with pending := some snapshot })

/-- The two ways to note a candidate differ in the phase they assert only. -/
def noteWhileApplying (q : SnapshotQueue I) (snapshot : QueuedSnapshot I) :
    Option Revision × SnapshotQueue I :=
  q.note snapshot

@[inherit_doc noteWhileApplying]
def noteWhenIdle (q : SnapshotQueue I) (snapshot : QueuedSnapshot I) :
    Option Revision × SnapshotQueue I :=
  q.note snapshot

def takeNext (q : SnapshotQueue I) : Option (QueuedSnapshot I × SnapshotQueue I) :=
  if q.applying then none
  else q.pending.map fun next => (next, ⟨none, true⟩)

def finishApply (q : SnapshotQueue I) : SnapshotQueue I :=
  { q with applying := false }

theorem takeNext_eq_some {q q' : SnapshotQueue I} {next : QueuedSnapshot I}
    (h : q.takeNext = some (next, q')) :
    q.applying = false ∧ q.pending = some next ∧ q' = ⟨none, true⟩ := by
  unfold takeNext at h
  split at h
  · cases h
  · next ha =>
    obtain ⟨p, hp, heq⟩ := Option.map_eq_some_iff.mp h
    cases heq
    exact ⟨by simpa using ha, hp, rfl⟩

theorem takeNext_eq_none {q : SnapshotQueue I} (h : q.takeNext = none)
    (ha : q.applying = false) : q.pending = none := by
  simpa [takeNext, ha] using h

end SnapshotQueue

/-! ## Snapshots and errors -/

/-- `ManagedSessionLimitKind`. -/
inductive LimitKind where
  | sseLineBytes
  | sseEventTypeBytes
  | sseEventDataBytes
  | snapshotBytes
  | decodedAllocationBytes
  | revisionChars
  | tunnels
  | publicHostnamesTotal
  | publicHostnamesPerTunnel
  | clientIdentitiesTotal
  | clientIdentitiesPerTunnel
  | serverAddresses
  deriving DecidableEq

inductive InputError where
  | missingTunnels
  | missingServerAddresses
  | invalidShape (message : String)
  | limitExceeded (limit : LimitKind) (value max : Nat)
  deriving DecidableEq

inductive ManagedSessionError where
  | connection
  | sse
  | snapshot
  | inputLimit (limit : LimitKind) (value max : Nat)
  | silenceTimeout
  | firstSnapshotTimeout
  | stateAcknowledgmentTimeout
  | streamEnded
  deriving DecidableEq

structure ApplyError where
  message : String
  deriving DecidableEq

/-- What `on_event` is told on one connection. -/
inductive ManagedSessionEvent where
  | snapshot (revision : Revision)
  | applying (revision : Revision)
  | applied (revision : Revision)
  | rejected (revision : Revision)
  | superseded (revision : Revision)
  deriving DecidableEq

/-- A validated envelope, its role input still raw. -/
structure SnapshotEnvelope (V : Type) where
  revision : Revision
  input : V
  deriving DecidableEq

/-- An item of the event stream after the envelope's validation.  Comments and
events without type and data are ignored. -/
inductive StreamItem (V : Type) where
  | ignored
  | invalid
  | snapshot (envelope : SnapshotEnvelope V)
  deriving DecidableEq

/-- What `next_chunk` yields: a transport failure, the end of the stream, no
bytes, bytes the event-stream parser refuses, or the items they complete. -/
inductive Chunk (V : Type) where
  | failed
  | ended
  | empty
  | malformed
  | items (items : List (StreamItem V))
  deriving DecidableEq

/-- How a state request ends. -/
inductive ReportResult where
  | acknowledged
  | timedOut
  | failed
  deriving DecidableEq

/-! ## The lifecycle of one connection -/

/-- One request in flight and at most one document waiting. -/
structure ReportState where
  /-- The revision of the document being sent. -/
  inFlight : Option Revision := none
  pending : Bool := false
  revision : Option Revision := none
  lastStarted : Option Instant := none
  deriving DecidableEq

namespace ReportState

def nextStartAt (r : ReportState) : Option Instant :=
  r.lastStarted.map fun started => started + stateRequestSpacing

/-- When the waiting document waits for the spacing only, the instant it may
start. -/
def spacingWait (r : ReportState) : Option Instant :=
  if r.pending ∧ r.inFlight = none ∧ r.revision ≠ none then r.nextStartAt else none

end ReportState

/-- The phase of `run_state_machine`, with the snapshot it is applying. -/
inductive ConnectionPhase (I : Type) where
  | idle
  | applying (snapshot : QueuedSnapshot I)
  deriving DecidableEq

def ConnectionPhase.isApplying {I : Type} : ConnectionPhase I → Bool
  | .idle => false
  | .applying _ => true

theorem ConnectionPhase.eq_idle {I : Type} {phase : ConnectionPhase I}
    (h : phase.isApplying = false) : phase = .idle := by
  cases phase with
  | idle => rfl
  | applying q => cases h

/-- Where the loop of `drive_until_transition` stands: at its top, in its
select with the end of its sleep, or in the items of a chunk. -/
inductive Control (V : Type) where
  | top
  | select (wake : Instant)
  | ingest (items : List (StreamItem V))
  deriving DecidableEq

structure ConnectionLifecycle (V I : Type) where
  deadlines : SessionDeadlines
  receivedValidSnapshot : Bool := false
  queue : SnapshotQueue I := {}
  report : ReportState := {}
  /-- Whether the adapter has role facts to report. -/
  roleState : Bool
  phase : ConnectionPhase I := .idle
  control : Control V := .top
  /-- What `on_event` was told so far. -/
  events : List ManagedSessionEvent := []
  deriving DecidableEq

/-- The event of a superseded candidate, if there is one. -/
def SnapshotQueue.supersedes {I : Type} (q : SnapshotQueue I) : List ManagedSessionEvent :=
  (q.pending.map fun p => ManagedSessionEvent.superseded p.revision).toList

namespace ConnectionLifecycle

variable {V I : Type}

/-- A connection attempt that began at `startedAt` and succeeded. -/
def connect (startedAt : Instant) (roleState : Bool) : ConnectionLifecycle V I :=
  { deadlines := .new startedAt, roleState }

def onEvent (c : ConnectionLifecycle V I) (event : ManagedSessionEvent) :
    ConnectionLifecycle V I :=
  { c with events := c.events ++ [event] }

/-- Start the waiting document's request once none is in flight and the spacing
allows. -/
def driveReport (c : ConnectionLifecycle V I) (now : Instant) : ConnectionLifecycle V I :=
  if c.report.inFlight ≠ none ∨ c.report.pending = false then c
  else
    match c.report.revision with
    | none => c
    | some revision =>
      if ∃ startAt ∈ c.report.nextStartAt, now < startAt then c
      else
        { c with report := { c.report with
            pending := false
            lastStarted := some now
            inFlight := some revision } }

def scheduleReport (c : ConnectionLifecycle V I) (now : Instant) (revision : Revision) :
    ConnectionLifecycle V I :=
  { c with report := { c.report with revision := some revision, pending := true } }.driveReport now

def noteRoleStateChanged (c : ConnectionLifecycle V I) (now : Instant) :
    ConnectionLifecycle V I :=
  if c.report.revision = none then c
  else { c with report := { c.report with pending := true } }.driveReport now

def onReportFinished (c : ConnectionLifecycle V I) (now : Instant) :
    ReportResult → Except ManagedSessionError (ConnectionLifecycle V I)
  | .acknowledged => .ok (c.driveReport now)
  | .timedOut => .error .stateAcknowledgmentTimeout
  | .failed => .error .connection

def handleTimer (c : ConnectionLifecycle V I) (now : Instant) :
    Except ManagedSessionError Unit :=
  if c.deadlines.expired now then
    if c.receivedValidSnapshot = false ∧ c.deadlines.firstSnapshotDeadline ≤ now then
      .error .firstSnapshotTimeout
    else .error .silenceTimeout
  else .ok ()

/-- The candidate of a snapshot is noted by the phase's own queue operation. -/
def noteSnapshot (c : ConnectionLifecycle V I) (snapshot : QueuedSnapshot I) :
    ConnectionLifecycle V I :=
  let noted :=
    if c.phase.isApplying then c.queue.noteWhileApplying snapshot
    else c.queue.noteWhenIdle snapshot
  let c := { c with queue := noted.2 }
  match noted.1 with
  | some revision => c.onEvent (.superseded revision)
  | none => c

/-- A snapshot that carries the applied revision is reported again when no
apply is in flight.  Any other one is validated and becomes the candidate. -/
def acceptEnvelope (parseInput : V → Except InputError I) (c : ConnectionLifecycle V I)
    (now : Instant) (applied : AppliedRevision) (envelope : SnapshotEnvelope V) :
    Except ManagedSessionError (ConnectionLifecycle V I) :=
  if c.phase.isApplying = false ∧ applied.matchesRevision envelope.revision then
    .ok (c.scheduleReport now envelope.revision)
  else
    match parseInput envelope.input with
    | .ok input => .ok (c.noteSnapshot ⟨envelope.revision, input⟩)
    | .error (.limitExceeded limit value max) => .error (.inputLimit limit value max)
    | .error _ => .ok (c.onEvent (.rejected envelope.revision))

/-- One item of a chunk in `ingest_chunk`. -/
def ingestItem (parseInput : V → Except InputError I) (c : ConnectionLifecycle V I)
    (now : Instant) (applied : AppliedRevision) :
    StreamItem V → Except ManagedSessionError (ConnectionLifecycle V I)
  | .ignored => .ok c
  | .invalid => .error .snapshot
  | .snapshot envelope =>
    match c.deadlines.tryNoteValidSnapshot now with
    | none => .error .firstSnapshotTimeout
    | some deadlines =>
      ({ c with deadlines, receivedValidSnapshot := true }.onEvent
        (.snapshot envelope.revision)).acceptEnvelope parseInput now applied envelope

/-- `ingest_chunk` up to its first item. -/
def beginChunk (c : ConnectionLifecycle V I) (now : Instant) :
    Chunk V → Except ManagedSessionError (ConnectionLifecycle V I)
  | .failed => .error .connection
  | .ended => .error .streamEnded
  | .empty => .ok { c with control := .top }
  | .malformed => .error .sse
  | .items items =>
    .ok { c with deadlines := c.deadlines.noteBytes now, control := .ingest items }

/-- The top of the loop of `drive_until_transition`.  The idle phase takes the
candidate here, before it waits for anything else. -/
def drive (c : ConnectionLifecycle V I) (now : Instant) (applied : AppliedRevision) :
    Except ManagedSessionError (ConnectionLifecycle V I) :=
  let c := c.driveReport now
  match c.handleTimer now with
  | .error e => .error e
  | .ok () =>
    match (if c.phase.isApplying then none else c.queue.takeNext) with
    | some (pending, queue) =>
      if applied.matchesRevision pending.revision then
        .ok ({ c with queue := queue.finishApply }.scheduleReport now pending.revision)
      else
        .ok ({ c with queue, phase := .applying pending }.onEvent
          (.applying pending.revision))
    | none => .ok { c with control := .select (c.deadlines.nextWait now) }

/-- The rest of a turn of `run_state_machine` once the apply has returned. -/
def applyReturned (c : ConnectionLifecycle V I) (now : Instant) (applied : AppliedRevision)
    (snapshot : QueuedSnapshot I) :
    Except ApplyError Unit → AppliedRevision × ConnectionLifecycle V I
  | .ok () =>
    (applied.set snapshot.revision,
      { ((c.onEvent (.applied snapshot.revision)).scheduleReport now snapshot.revision) with
        queue := c.queue.finishApply, phase := .idle, control := .top })
  | .error _ =>
    (applied,
      { c.onEvent (.rejected snapshot.revision) with
        queue := c.queue.finishApply, phase := .idle, control := .top })

/-- What happens next on a connection. -/
inductive Action (V : Type) where
  | drive
  | timer
  | chunk (chunk : Chunk V)
  | ingest
  | applyReturns (result : Except ApplyError Unit)
  | reportReturns (result : ReportResult)
  | spacing
  | roleStateChanged

/-- Whether an action is the return of the apply. -/
def Action.returnsApply : Action V → Bool
  | .applyReturns _ => true
  | _ => false

/-- One turn on the connection: `none` when the action is not enabled, an error
when the connection ends. -/
def step (parseInput : V → Except InputError I) (now : Instant) (applied : AppliedRevision)
    (c : ConnectionLifecycle V I) (a : Action V) :
    Option (Except ManagedSessionError (AppliedRevision × ConnectionLifecycle V I)) :=
  match c.control, a with
  | .top, .drive => some ((c.drive now applied).map fun c => (applied, c))
  | .ingest [], .ingest => some (.ok (applied, { c with control := .top }))
  | .ingest (item :: items), .ingest =>
    some (({ c with control := .ingest items }.ingestItem parseInput now applied item).map
      fun c => (applied, c))
  | .select _, .chunk chunk => some ((c.beginChunk now chunk).map fun c => (applied, c))
  | .select wake, .timer =>
    if wake ≤ now then
      some ((c.handleTimer now).map fun _ => (applied, { c with control := .top }))
    else none
  | .select _, .applyReturns result =>
    match c.phase with
    | .applying snapshot => some (.ok (c.applyReturned now applied snapshot result))
    | .idle => none
  | .select _, .reportReturns result =>
    if c.report.inFlight = none then none
    else
      some (({ c with
        report := { c.report with inFlight := none }
        control := .top }.onReportFinished now result).map fun c => (applied, c))
  | .select _, .spacing =>
    if ∃ startAt ∈ c.report.spacingWait, startAt ≤ now then
      some (.ok (applied, { c with control := .top }))
    else none
  | .select _, .roleStateChanged =>
    if c.roleState then
      some (.ok (applied, { c with control := .top }.noteRoleStateChanged now))
    else none
  | _, _ => none

/-! ## What a turn can do -/

theorem step_applyReturns {parseInput : V → Except InputError I} {now : Instant}
    {applied : AppliedRevision} {c : ConnectionLifecycle V I} {result : Except ApplyError Unit}
    {outcome : Except ManagedSessionError (AppliedRevision × ConnectionLifecycle V I)}
    (h : c.step parseInput now applied (.applyReturns result) = some outcome) :
    ∃ snapshot, c.phase = .applying snapshot ∧
      outcome = .ok (c.applyReturned now applied snapshot result) := by
  cases hc : c.control with
  | top => simp [step, hc] at h
  | ingest items => cases items <;> simp [step, hc] at h
  | select wake =>
    cases hp : c.phase with
    | idle => simp [step, hc, hp] at h
    | applying snapshot => exact ⟨snapshot, rfl, by simpa [step, hc, hp] using h.symm⟩

theorem driveReport_eq (c : ConnectionLifecycle V I) (now : Instant) :
    ∃ report, c.driveReport now = { c with report } := by
  unfold driveReport
  split
  · exact ⟨c.report, rfl⟩
  · split
    · exact ⟨c.report, rfl⟩
    · split
      · exact ⟨c.report, rfl⟩
      · exact ⟨_, rfl⟩

theorem scheduleReport_eq (c : ConnectionLifecycle V I) (now : Instant) (revision : Revision) :
    ∃ report, c.scheduleReport now revision = { c with report } := by
  obtain ⟨report, h⟩ := driveReport_eq
    { c with report := { c.report with revision := some revision, pending := true } } now
  exact ⟨report, h⟩

theorem noteRoleStateChanged_eq (c : ConnectionLifecycle V I) (now : Instant) :
    ∃ report, c.noteRoleStateChanged now = { c with report } := by
  unfold noteRoleStateChanged
  split
  · exact ⟨c.report, rfl⟩
  · obtain ⟨report, h⟩ := driveReport_eq
      { c with report := { c.report with pending := true } } now
    exact ⟨report, h⟩

theorem noteSnapshot_eq (c : ConnectionLifecycle V I) (snapshot : QueuedSnapshot I) :
    c.noteSnapshot snapshot = { c with
      queue := { c.queue with pending := some snapshot }
      events := c.events ++ c.queue.supersedes } := by
  have hn : (if c.phase.isApplying then c.queue.noteWhileApplying snapshot
      else c.queue.noteWhenIdle snapshot) = c.queue.note snapshot := ite_self _
  cases hp : c.queue.pending with
  | none => simp [noteSnapshot, hn, SnapshotQueue.note, SnapshotQueue.supersedes, hp]
  | some p => simp [noteSnapshot, hn, SnapshotQueue.note, SnapshotQueue.supersedes, hp, onEvent]

theorem acceptEnvelope_eq_ok {parseInput : V → Except InputError I} {now : Instant}
    {applied : AppliedRevision} {c c' : ConnectionLifecycle V I} {envelope : SnapshotEnvelope V}
    (h : c.acceptEnvelope parseInput now applied envelope = .ok c') :
    (c.phase = .idle ∧ applied.revision = some envelope.revision ∧
      ∃ report, c' = { c with report }) ∨
    ((c.phase = .idle → applied.revision ≠ some envelope.revision) ∧
      ∃ input, parseInput envelope.input = .ok input ∧ c' = { c with
        queue := { c.queue with pending := some ⟨envelope.revision, input⟩ }
        events := c.events ++ c.queue.supersedes }) ∨
    (∃ error, parseInput envelope.input = .error error ∧
      c' = c.onEvent (.rejected envelope.revision)) := by
  unfold acceptEnvelope at h
  split at h
  · next hs =>
    obtain ⟨report, hr⟩ := c.scheduleReport_eq now envelope.revision
    rw [hr] at h
    cases h
    exact .inl ⟨ConnectionPhase.eq_idle hs.1, by simpa using hs.2, report, rfl⟩
  · next hs =>
    split at h
    · next input hp =>
      rw [noteSnapshot_eq] at h
      cases h
      refine .inr (.inl ⟨fun hph hm => hs ⟨?_, ?_⟩, input, hp, rfl⟩)
      · rw [hph]
        rfl
      · simpa using hm
    · cases h
    · next error _ he =>
      cases h
      exact .inr (.inr ⟨error, he, rfl⟩)

end ConnectionLifecycle

variable {V I : Type}

/-- The turns of a connection that do not end it, up to reports and deadlines. -/
inductive Turn (parseInput : V → Except InputError I) (applied : AppliedRevision)
    (c : ConnectionLifecycle V I) :
    ConnectionLifecycle.Action V → AppliedRevision → ConnectionLifecycle V I → Prop where
  | wait :
      a.returnsApply = false →
      (∀ items, c.control = .ingest items → items = []) →
      Turn parseInput applied c a applied { c with report, control := .top }
  | select :
      c.control = .top →
      (c.phase = .idle → c.queue.takeNext = none) →
      Turn parseInput applied c .drive applied { c with report, control := .select wake }
  | chunk :
      c.control = .select wake →
      Turn parseInput applied c (.chunk (.items items)) applied
        { c with deadlines, control := .ingest items }
  | ignored :
      c.control = .ingest (.ignored :: items) →
      Turn parseInput applied c .ingest applied { c with control := .ingest items }
  | reported :
      c.control = .ingest (.snapshot envelope :: items) →
      c.phase = .idle →
      applied.revision = some envelope.revision →
      Turn parseInput applied c .ingest applied { c with
        deadlines
        receivedValidSnapshot := true
        report
        control := .ingest items
        events := c.events ++ [.snapshot envelope.revision] }
  | noted :
      c.control = .ingest (.snapshot envelope :: items) →
      (c.phase = .idle → applied.revision ≠ some envelope.revision) →
      parseInput envelope.input = .ok input →
      Turn parseInput applied c .ingest applied { c with
        deadlines
        receivedValidSnapshot := true
        queue := { c.queue with pending := some ⟨envelope.revision, input⟩ }
        control := .ingest items
        events := c.events ++ [.snapshot envelope.revision] ++ c.queue.supersedes }
  | invalid :
      c.control = .ingest (.snapshot envelope :: items) →
      parseInput envelope.input = .error error →
      Turn parseInput applied c .ingest applied { c with
        deadlines
        receivedValidSnapshot := true
        control := .ingest items
        events := c.events ++ [.snapshot envelope.revision] ++ [.rejected envelope.revision] }
  | current :
      c.control = .top →
      c.phase = .idle →
      c.queue = ⟨some pending, false⟩ →
      applied.revision = some pending.revision →
      Turn parseInput applied c .drive applied { c with report, queue := ⟨none, false⟩ }
  | start :
      c.control = .top →
      c.phase = .idle →
      c.queue = ⟨some pending, false⟩ →
      Turn parseInput applied c .drive applied { c with
        report
        queue := ⟨none, true⟩
        phase := .applying pending
        events := c.events ++ [.applying pending.revision] }
  | applied :
      c.phase = .applying snapshot →
      Turn parseInput applied c (.applyReturns (.ok ())) (applied.set snapshot.revision) { c with
        report
        queue := c.queue.finishApply
        phase := .idle
        control := .top
        events := c.events ++ [.applied snapshot.revision] }
  | rejected :
      c.phase = .applying snapshot →
      Turn parseInput applied c (.applyReturns (.error error)) applied { c with
        queue := c.queue.finishApply
        phase := .idle
        control := .top
        events := c.events ++ [.rejected snapshot.revision] }

section

variable {parseInput : V → Except InputError I} {now : Instant} {applied applied' : AppliedRevision}
  {c c' : ConnectionLifecycle V I} {a : ConnectionLifecycle.Action V}

theorem turn_of_drive (hto : c.control = .top)
    (h : c.drive now applied = .ok c') : Turn parseInput applied c .drive applied c' := by
  obtain ⟨report, hr⟩ := c.driveReport_eq now
  simp only [ConnectionLifecycle.drive, hr] at h
  split at h
  · cases h
  · split at h
    · next pending queue ht =>
      split at ht
      · cases ht
      · next hap =>
        have hph : c.phase = .idle := ConnectionPhase.eq_idle (by simpa using hap)
        obtain ⟨ha, hp, rfl⟩ := SnapshotQueue.takeNext_eq_some ht
        have hq : c.queue = ⟨some pending, false⟩ := by
          rw [← ha, ← hp]
        split at h
        · next hm =>
          obtain ⟨report', hr'⟩ := ConnectionLifecycle.scheduleReport_eq
            { c with report, queue := SnapshotQueue.finishApply ⟨none, true⟩ } now
            pending.revision
          rw [hr'] at h
          cases h
          exact .current hto hph hq (by simpa using hm)
        · cases h
          exact .start hto hph hq
    · next hn =>
      cases h
      refine .select hto fun hph => ?_
      simpa [hph, ConnectionPhase.isApplying] using hn

theorem turn_of_ingestItem {item : StreamItem V}
    {items : List (StreamItem V)} (hi : c.control = .ingest (item :: items))
    (h : { c with control := .ingest items }.ingestItem parseInput now applied item = .ok c') :
    Turn parseInput applied c .ingest applied c' := by
  cases item with
  | ignored =>
    cases h
    exact .ignored hi
  | invalid => cases h
  | snapshot envelope =>
    simp only [ConnectionLifecycle.ingestItem] at h
    split at h
    · cases h
    · next deadlines _ =>
      obtain ⟨hph, hm, report, rfl⟩ | ⟨hne, input, hp, rfl⟩ | ⟨error, he, rfl⟩ :=
        ConnectionLifecycle.acceptEnvelope_eq_ok h
      · exact .reported hi hph hm
      · exact .noted hi hne hp
      · exact .invalid hi he

theorem Turn.of_select {wake : Instant}
    {report : ReportState} (ha : a.returnsApply = false) (hs : c.control = .select wake) :
    Turn parseInput applied c a applied { c with report, control := .top } :=
  .wait ha (by simp [hs])

theorem turn_of_step (h : c.step parseInput now applied a = some (.ok (applied', c'))) :
    Turn parseInput applied c a applied' c' := by
  unfold ConnectionLifecycle.step at h
  split at h
  · next ht =>
    obtain ⟨c₁, h₁, heq⟩ := map_ok (Option.some.inj h)
    cases heq
    exact turn_of_drive ht h₁
  · next hi =>
    cases h
    exact .wait rfl (by simp [hi])
  · next item items hi =>
    obtain ⟨c₁, h₁, heq⟩ := map_ok (Option.some.inj h)
    cases heq
    exact turn_of_ingestItem hi h₁
  · next wake chunk hs =>
    obtain ⟨c₁, h₁, heq⟩ := map_ok (Option.some.inj h)
    cases heq
    cases chunk with
    | failed => cases h₁
    | ended => cases h₁
    | malformed => cases h₁
    | empty =>
      cases h₁
      exact .of_select rfl hs
    | items items =>
      cases h₁
      exact .chunk hs
  · next wake hs =>
    split at h
    · obtain ⟨_, _, heq⟩ := map_ok (Option.some.inj h)
      cases heq
      exact .of_select rfl hs
    · cases h
  · next wake result hs =>
    split at h
    · next snapshot hp =>
      cases result with
      | ok =>
        obtain ⟨report, hr⟩ := ConnectionLifecycle.scheduleReport_eq
          (c.onEvent (.applied snapshot.revision)) now snapshot.revision
        simp only [ConnectionLifecycle.applyReturned, hr] at h
        cases h
        exact .applied hp
      | error e =>
        cases h
        exact .rejected hp
    · cases h
  · next wake result hs =>
    split at h
    · cases h
    · obtain ⟨c₁, h₁, heq⟩ := map_ok (Option.some.inj h)
      cases heq
      cases result with
      | acknowledged =>
        obtain ⟨report, hr⟩ := ConnectionLifecycle.driveReport_eq
          { c with report := { c.report with inFlight := none }, control := .top } now
        rw [← Except.ok.inj h₁, hr]
        exact .of_select rfl hs
      | timedOut => cases h₁
      | failed => cases h₁
  · next wake hs =>
    split at h
    · cases h
      exact .of_select rfl hs
    · cases h
  · next wake hs =>
    split at h
    · obtain ⟨report, hr⟩ := ConnectionLifecycle.noteRoleStateChanged_eq
        { c with control := .top } now
      rw [hr] at h
      cases h
      exact .of_select rfl hs
    · cases h
  · cases h

end

/-! ## The session -/

/-- `ManagedSession` with the future of its `run`. -/
structure Session (V I : Type) where
  now : Instant := 0
  applied : AppliedRevision := {}
  connection : Option (ConnectionLifecycle V I) := none
  roleState : Bool
  /-- The shutdown future of `run` has resolved. -/
  stopped : Bool := false
  deriving DecidableEq

namespace Session

inductive Action (V : Type) where
  | tick (elapsed : Nat)
  /-- A connection attempt that began at `startedAt` succeeds. -/
  | connect (startedAt : Instant)
  | connection (action : ConnectionLifecycle.Action V)
  /-- The shutdown future resolves, and the connection is dropped. -/
  | shutdown

@[inherit_doc ConnectionLifecycle.Action.returnsApply]
def Action.returnsApply : Action V → Bool
  | .connection a => a.returnsApply
  | _ => false

/-- An error ends the connection.  Of its state only the applied revision stays. -/
def onConnection (s : Session V I) :
    Except ManagedSessionError (AppliedRevision × ConnectionLifecycle V I) → Session V I
  | .ok (applied, c) => { s with applied, connection := some c }
  | .error _ => { s with connection := none }

def step (parseInput : V → Except InputError I) (s : Session V I) :
    Action V → Option (Session V I)
  | .tick elapsed => some { s with now := s.now + elapsed }
  | .connect startedAt =>
    if s.connection.isNone ∧ s.stopped = false ∧ startedAt ≤ s.now then
      some { s with connection := some (.connect startedAt s.roleState) }
    else none
  | .connection a =>
    s.connection.bind fun c => (c.step parseInput s.now s.applied a).map s.onConnection
  | .shutdown => if s.stopped then none else some { s with connection := none, stopped := true }

def system (parseInput : V → Except InputError I) : Lts (Session V I) (Action V) where
  step := step parseInput

/-- The steps of a session: its connection turns, or ends and leaves the applied
revision behind. -/
inductive Step (parseInput : V → Except InputError I) (s : Session V I) :
    Action V → Session V I → Prop where
  | tick : Step parseInput s (.tick elapsed) { s with now := s.now + elapsed }
  | connect :
      s.connection = none →
      Step parseInput s (.connect startedAt)
        { s with connection := some (.connect startedAt s.roleState) }
  | turn :
      s.connection = some c →
      Turn parseInput s.applied c a applied' c' →
      Step parseInput s (.connection a) { s with applied := applied', connection := some c' }
  | ends :
      a.returnsApply = false →
      Step parseInput s a { s with connection := none, stopped := stopped' }

theorem step_cases {parseInput : V → Except InputError I} {s s' : Session V I} {a : Action V}
    (h : s.step parseInput a = some s') : Step parseInput s a s' := by
  cases a with
  | tick elapsed =>
    cases h
    exact .tick
  | connect startedAt =>
    obtain ⟨⟨hn, -⟩, ⟨⟩⟩ := Option.ite_some_none_eq_some.mp h
    exact .connect (by simpa using hn)
  | connection a =>
    obtain ⟨c, hc, h⟩ := Option.bind_eq_some_iff.mp h
    obtain ⟨outcome, hs, rfl⟩ := Option.map_eq_some_iff.mp h
    cases outcome with
    | error e =>
      refine .ends ?_
      cases a with
      | applyReturns result =>
        obtain ⟨_, _, heq⟩ := ConnectionLifecycle.step_applyReturns hs
        cases heq
      | _ => rfl
    | ok next => exact .turn hc (turn_of_step hs)
  | shutdown =>
    obtain ⟨-, heq⟩ := Option.ite_none_left_eq_some.mp h
    cases heq
    exact .ends rfl

/-- Only the return of an apply changes the applied revision. -/
theorem Step.applied_eq {parseInput : V → Except InputError I} {s s' : Session V I} {a : Action V}
    (h : Step parseInput s a s') (ha : a.returnsApply = false) : s'.applied = s.applied := by
  cases h with
  | turn _ ht =>
    cases ht with
    | applied _ | rejected _ => cases ha
    | _ => rfl
  | _ => rfl

end Session

end Runewarp.ManagedSession
