import Runewarp.ManagedSession.Reporting

/-!
# Deadlines of a connection

A connection has to deliver a valid snapshot within a minute of its start, and from then on it
must not be silent for a minute.  `handle_timer` fails a turn of the loop by what
`SessionDeadlines` holds; the runs here carry beside it the times it stands for, when bytes or
a valid snapshot last came and when the first snapshot was accepted.
-/

namespace Runewarp.ManagedSession

variable {V I : Type}

/-- When bytes or a valid snapshot last came, and when the first snapshot was accepted. -/
structure SessionTimes where
  last : Instant
  first : Option Instant := none

namespace SessionTimes

/-- The times after a step.  A snapshot that is accepted is told to `on_event`. -/
def observe (t : SessionTimes) (s s' : Reporting V I) : Reporting.Action V → SessionTimes
  | .turn (.chunk (.items _)) => { t with last := s.now }
  | .turn .ingest =>
    match s'.pause with
    | some (.accept _) => ⟨s.now, some (t.first.getD s.now)⟩
    | _ => t
  | _ => t

/-- The instant at which the connection fails if nothing comes. -/
def deadline (t : SessionTimes) (startedAt : Instant) : Instant :=
  if t.first = none then startedAt + firstSnapshotDeadline else t.last + silenceTimeout

/-- The error it then fails with. -/
def timeout (t : SessionTimes) : ManagedSessionError :=
  if t.first = none then .firstSnapshotTimeout else .silenceTimeout

end SessionTimes

/-- The deadlines stay, and a sleep is one that was begun before or begins now. -/
structure Quiet (now : Instant) (c c' : ConnectionLifecycle V I) : Prop where
  deadlines : c'.deadlines = c.deadlines
  received : c'.receivedValidSnapshot = c.receivedValidSnapshot
  sleep : ∀ wake, c'.control = .select wake →
    c.control = .select wake ∨ wake = c.deadlines.nextWait now

variable {parseInput : V → Except InputError I} {now : Instant} {applied : AppliedRevision}
  {c c' : ConnectionLifecycle V I}

/-- What a step does to the deadlines and the times. -/
inductive TimedStep (s : Reporting V I) (t : SessionTimes) :
    Reporting V I → SessionTimes → Prop where
  | quiet : s'.now = s.now → Quiet s.now s.connection s'.connection → TimedStep s t s' t
  | tick : TimedStep s t { s with now := s.now + elapsed } t
  | bytes : s'.now = s.now →
      s'.connection.deadlines = s.connection.deadlines.noteBytes s.now →
      s'.connection.receivedValidSnapshot = s.connection.receivedValidSnapshot →
      s'.connection.control = .ingest items → TimedStep s t s' { t with last := s.now }
  | accepted : s'.now = s.now →
      s.connection.deadlines.tryNoteValidSnapshot s.now = some s'.connection.deadlines →
      s'.connection.receivedValidSnapshot = true → s'.connection.control = .ingest items →
      TimedStep s t s' ⟨s.now, some (t.first.getD s.now)⟩

variable {s s' : Reporting V I} {t t' : SessionTimes}

/-- The deadlines are the ones of the times. -/
structure TimedInv (startedAt : Instant) (s : Reporting V I) (t : SessionTimes) : Prop where
  deadlines : s.connection.deadlines =
    ⟨startedAt + firstSnapshotDeadline, t.last + silenceTimeout, t.first.isSome⟩
  received : s.connection.receivedValidSnapshot = t.first.isSome
  started : startedAt ≤ t.last
  last : t.last ≤ s.now
  first : ∀ i ∈ t.first, i < startedAt + firstSnapshotDeadline
  sleep : ∀ wake, s.connection.control = .select wake →
    ∃ i ≤ s.now, wake = s.connection.deadlines.nextWait i

variable {startedAt : Instant}

theorem TimedInv.step (h : TimedInv startedAt s t) (hs : TimedStep s t s' t') :
    TimedInv startedAt s' t' := by
  cases hs with
  | quiet hn hq =>
    refine ⟨hq.deadlines.trans h.deadlines, hq.received.trans h.received, h.started,
      hn ▸ h.last, h.first, fun wake hw => ?_⟩
    rw [hq.deadlines, hn]
    obtain hw | hw := hq.sleep wake hw
    · exact h.sleep wake hw
    · exact ⟨_, le_rfl, hw⟩
  | tick =>
    refine ⟨h.deadlines, h.received, h.started, Nat.le_add_right_of_le h.last, h.first,
      fun wake hw => ?_⟩
    obtain ⟨i, hi, hw⟩ := h.sleep wake hw
    exact ⟨i, Nat.le_add_right_of_le hi, hw⟩
  | bytes hn hd hr hc =>
    refine ⟨?_, hr.trans h.received, Nat.le_trans h.started h.last, Nat.le_of_eq hn.symm, h.first,
      fun wake hw => ?_⟩
    · rw [hd, h.deadlines]
      rfl
    · rw [hc] at hw
      cases hw
  | accepted hn hd hr hc =>
    rw [h.deadlines, SessionDeadlines.tryNoteValidSnapshot] at hd
    obtain ⟨hlt, hd⟩ := Option.ite_none_left_eq_some.mp hd
    refine ⟨?_, hr, Nat.le_trans h.started h.last, Nat.le_of_eq hn.symm, fun i hi => ?_,
      fun wake hw => ?_⟩
    · rw [← Option.some.inj hd]
      rfl
    · cases hf : t.first with
      | some j => exact h.first i (by rw [hf]; rw [hf] at hi; exact hi)
      | none =>
        rw [hf] at hi hlt
        cases hi
        simpa using hlt
    · rw [hc] at hw
      cases hw

theorem TimedInv.first_le (h : TimedInv startedAt s t) :
    startedAt + firstSnapshotDeadline ≤ t.last + silenceTimeout :=
  Nat.add_le_add_right h.started firstSnapshotDeadline

theorem TimedInv.nextDeadline (h : TimedInv startedAt s t) :
    s.connection.deadlines.nextDeadline = t.deadline startedAt := by
  rw [h.deadlines, SessionDeadlines.nextDeadline, SessionTimes.deadline]
  obtain hf | ⟨i, hf⟩ := Option.eq_none_or_eq_some t.first
  · simp [hf, Nat.min_eq_left h.first_le]
  · simp [hf]

theorem TimedInv.handleTimer (h : TimedInv startedAt s t) :
    s.connection.handleTimer s.now =
      if t.deadline startedAt ≤ s.now then .error t.timeout else .ok () := by
  simp only [ConnectionLifecycle.handleTimer, SessionDeadlines.expired, h.deadlines, h.received,
    SessionTimes.deadline, SessionTimes.timeout]
  obtain hf | ⟨i, hf⟩ := Option.eq_none_or_eq_some t.first
  · by_cases hl : startedAt + firstSnapshotDeadline ≤ s.now
    · simp [hf, hl]
    · have hs : ¬t.last + silenceTimeout ≤ s.now := fun hs => hl (Nat.le_trans h.first_le hs)
      simp [hf, hl, hs]
  · simp [hf]

end Runewarp.ManagedSession
