import Runewarp.ManagedSession.Lifecycle

/-!
# Latest-state reconciliation

When every input parses and every apply succeeds, a connection that has settled,
idle with no candidate, should have applied the last snapshot it received.  One
chunk can break this: the idle phase reports a snapshot that carries the applied
revision at once, and does not drop the candidate an earlier snapshot of the same
chunk has left.  That candidate is applied afterwards, over the newer snapshot.

The invariant relates the candidate, the snapshot in the apply and the last one
received.  Inside a chunk it may be broken for a while; there it says what the
rest of the chunk will restore.
-/

namespace Runewarp.ManagedSession

variable {V I : Type}

/-! ## Snapshots received -/

def ManagedSessionEvent.received? : ManagedSessionEvent → Option Revision
  | .snapshot revision => some revision
  | _ => none

/-- The revision of the last snapshot a connection received. -/
def lastReceived (events : List ManagedSessionEvent) : Option Revision :=
  (events.filterMap ManagedSessionEvent.received?).getLast?

@[simp] theorem lastReceived_snapshot (events : List ManagedSessionEvent) (r : Revision) :
    lastReceived (events ++ [.snapshot r]) = some r := by
  simp [lastReceived, ManagedSessionEvent.received?]

theorem lastReceived_append {events more : List ManagedSessionEvent}
    (h : ∀ e ∈ more, e.received? = none) : lastReceived (events ++ more) = lastReceived events := by
  have hn : more.filterMap ManagedSessionEvent.received? = [] := by
    simpa using h
  simp [lastReceived, hn]

@[simp] theorem lastReceived_supersedes (events : List ManagedSessionEvent)
    (queue : SnapshotQueue I) :
    lastReceived (events ++ queue.supersedes) = lastReceived events := by
  refine lastReceived_append ?_
  cases hp : queue.pending with
  | none => simp [SnapshotQueue.supersedes, hp]
  | some p => simp [SnapshotQueue.supersedes, hp, ManagedSessionEvent.received?]

def StreamItem.revision? : StreamItem V → Option Revision
  | .snapshot envelope => some envelope.revision
  | _ => none

/-- The revisions the items of a chunk carry, in order. -/
def revisions (items : List (StreamItem V)) : List Revision :=
  items.filterMap StreamItem.revision?

@[simp] theorem revisions_snapshot (envelope : SnapshotEnvelope V) (items : List (StreamItem V)) :
    revisions (.snapshot envelope :: items) = envelope.revision :: revisions items := rfl

/-! ## The condition on chunks -/

/-- A chunk that ends with the applied revision carries no other one. -/
def EndsElsewhere (applied : AppliedRevision) (revs : List Revision) : Prop :=
  revs.getLast? = applied.revision → ∀ r ∈ revs, applied.revision = some r

instance (applied : AppliedRevision) (revs : List Revision) :
    Decidable (EndsElsewhere applied revs) :=
  inferInstanceAs (Decidable (_ → _))

def StreamItem.parses (parseInput : V → Except InputError I) : StreamItem V → Bool
  | .snapshot envelope => (parseInput envelope.input).isOk
  | _ => true

/-- Every input parses and every apply succeeds. -/
def Succeeds (parseInput : V → Except InputError I) : Session.Action V → Prop
  | .connection (.chunk (.items items)) => ∀ item ∈ items, item.parses parseInput = true
  | .connection (.applyReturns result) => result.isOk = true
  | _ => True

/-- A chunk the idle phase receives does not return to the applied revision behind
another one. -/
def NoReturn (s : Session V I) : Session.Action V → Prop
  | .connection (.chunk (.items items)) =>
    ∀ c ∈ s.connection, c.phase.isApplying = false → EndsElsewhere s.applied (revisions items)
  | _ => True

/-! ## The invariant -/

/-- How the candidate, the apply and the last snapshot received agree. -/
structure Reconciling (parseInput : V → Except InputError I) (applied : AppliedRevision)
    (c : ConnectionLifecycle V I) : Prop where
  flag : c.queue.applying = c.phase.isApplying
  settled : c.phase = .idle → c.queue.pending = none →
    lastReceived c.events = none ∨ lastReceived c.events = applied.revision
  applying : ∀ q, c.phase = .applying q → c.queue.pending = none →
    lastReceived c.events = some q.revision
  candidate : ∀ p, c.queue.pending = some p →
    (∀ items, c.control = .ingest items → c.phase = .idle → revisions items = []) →
    lastReceived c.events = some p.revision
  ahead : ∀ items, c.control = .ingest items → c.phase = .idle → revisions items ≠ [] →
    (revisions items).getLast? = applied.revision →
    c.queue.pending = none ∧ ∀ r ∈ revisions items, applied.revision = some r
  waiting : ∀ wake, c.control = .select wake → c.phase = .idle → c.queue.pending = none
  parses : ∀ items, c.control = .ingest items → ∀ item ∈ items, item.parses parseInput = true

theorem Reconciling.turn {parseInput : V → Except InputError I} {s : Session V I}
    {applied' : AppliedRevision} {c c' : ConnectionLifecycle V I}
    {a : ConnectionLifecycle.Action V} (h : Reconciling parseInput s.applied c)
    (hc : s.connection = some c) (ht : Turn parseInput s.applied c a applied' c')
    (hs : Succeeds parseInput (.connection a)) (hn : NoReturn s (.connection a)) :
    Reconciling parseInput applied' c' := by
  cases ht with
  | wait _ hd =>
    refine ⟨h.flag, h.settled, h.applying, fun p hp _ => ?_, by simp, by simp, by simp⟩
    exact h.candidate p hp fun items hi _ => by simp [hd items hi, revisions]
  | select hto hno =>
    refine ⟨h.flag, h.settled, h.applying, fun p hp _ => ?_, by simp, ?_, by simp⟩
    · exact h.candidate p hp (by simp [hto])
    · intro _ _ hid
      have hf := h.flag
      rw [hid] at hf
      exact SnapshotQueue.takeNext_eq_none (hno hid) hf
  | chunk hse =>
    refine ⟨h.flag, h.settled, h.applying, fun p hp _ => ?_, ?_, by simp, ?_⟩
    · exact h.candidate p hp (by simp [hse])
    · rintro _ ⟨⟩ hid _ hl
      exact ⟨h.waiting _ hse hid, hn c hc (congrArg ConnectionPhase.isApplying hid) hl⟩
    · rintro _ ⟨⟩
      exact hs
  | @ignored items hit =>
    refine ⟨h.flag, h.settled, h.applying, fun p hp hre => ?_, ?_, by simp, ?_⟩
    · refine h.candidate p hp fun items' hi hid => ?_
      cases hit.symm.trans hi
      exact hre items rfl hid
    · rintro _ ⟨⟩
      exact h.ahead (.ignored :: items) hit
    · rintro _ ⟨⟩ e he
      exact h.parses _ hit e (.tail _ he)
  | @reported envelope items _ _ hit hid hm =>
    have ha := h.ahead _ hit hid (by simp)
    refine ⟨h.flag, fun _ _ => .inr (by simp [hm]), fun q hq => ?_, fun p hp hre => ?_, ?_,
      by simp, ?_⟩
    · rw [hid] at hq
      cases hq
    · -- The chunk ends here with the applied revision, so no candidate was left behind.
      have hl : revisions items = [] := hre _ rfl hid
      have hno := (ha (by simp [hl, hm])).1
      cases hno.symm.trans hp
    · rintro _ ⟨⟩ _ hne hl
      obtain ⟨hno, hal⟩ := ha (by
        rw [revisions_snapshot, List.getLast?_cons_of_ne_nil hne, hl])
      exact ⟨hno, fun r hr => hal r (.tail _ hr)⟩
    · rintro _ ⟨⟩ e he
      exact h.parses _ hit e (.tail _ he)
  | @noted envelope items _ _ hit hne _ =>
    refine ⟨h.flag, by simp, by simp, fun p hp _ => ?_, ?_, by simp, ?_⟩
    · cases hp
      rw [lastReceived_supersedes, lastReceived_snapshot]
    · rintro _ ⟨⟩ hid hni hl
      obtain ⟨-, hal⟩ := h.ahead _ hit hid (by simp) (by
        rw [revisions_snapshot, List.getLast?_cons_of_ne_nil hni, hl])
      exact absurd (hal _ (.head _)) (hne hid)
    · rintro _ ⟨⟩ e he
      exact h.parses _ hit e (.tail _ he)
  | invalid hit her =>
    have hpa := h.parses _ hit _ (.head _)
    simp [StreamItem.parses, her, Except.isOk, Except.toBool] at hpa
  | @current pending _ hto hid hqu hm =>
    have hl := h.candidate pending (by rw [hqu]) (by simp [hto])
    refine ⟨?_, fun _ _ => .inr (hl.trans hm.symm), by simp [hid], by simp,
      by simp [hto], by simp, by simp [hto]⟩
    simp [hid, ConnectionPhase.isApplying]
  | @start pending _ hto hid hqu =>
    have hl := h.candidate pending (by rw [hqu]) (by simp [hto])
    refine ⟨rfl, by simp, ?_, by simp, by simp [hto], by simp, by simp [hto]⟩
    rintro q ⟨⟩ _
    rw [lastReceived_append (by simp [ManagedSessionEvent.received?])]
    exact hl
  | @applied snapshot _ hph =>
    refine ⟨rfl, fun _ hp => .inr ?_, by simp, fun p hp _ => ?_, by simp, by simp, by simp⟩
    · rw [lastReceived_append (by simp [ManagedSessionEvent.received?])]
      exact h.applying snapshot hph hp
    · rw [lastReceived_append (by simp [ManagedSessionEvent.received?])]
      exact h.candidate p hp (by simp [hph])
  | rejected => cases hs

/-! ## Runs -/

/-- A settled connection has applied the last snapshot it received. -/
def Reconciled (s : Session V I) : Prop :=
  ∀ c ∈ s.connection, c.phase = .idle → c.queue.pending = none →
    ∀ r, lastReceived c.events = some r → s.applied.revision = some r

theorem reconciling_step {parseInput : V → Except InputError I} {s s' : Session V I}
    {a : Session.Action V} (h : ∀ c ∈ s.connection, Reconciling parseInput s.applied c)
    (hs : Succeeds parseInput a) (hn : NoReturn s a)
    (hst : (Session.system parseInput).step s a = some s') :
    ∀ c ∈ s'.connection, Reconciling parseInput s'.applied c := by
  cases Session.step_cases hst with
  | tick => exact h
  | connect =>
    rintro c ⟨⟩
    exact ⟨rfl, fun _ _ => .inl rfl, by rintro _ ⟨⟩, by rintro _ ⟨⟩, by rintro _ ⟨⟩,
      by rintro _ ⟨⟩, by rintro _ ⟨⟩⟩
  | ends => rintro c ⟨⟩
  | turn hc ht =>
    rintro c ⟨⟩
    exact (h _ hc).turn hc ht hs hn

/-- In every run in which inputs parse, applies succeed and no chunk returns to the
applied revision behind another one, a settled connection has applied the last
snapshot it received. -/
theorem settled_connection_applied_last (parseInput : V → Except InputError I)
    (s₀ s : Session V I) (hstart : s₀.connection = none)
    (hrun : (Session.system parseInput).Steps
      (fun s a => Succeeds parseInput a ∧ NoReturn s a) s₀ s) :
    Reconciled s := by
  have h := hrun.invariant (I := fun s => ∀ c ∈ s.connection, Reconciling parseInput s.applied c)
    (fun _ _ _ h hok hs => reconciling_step h hok.1 hok.2 hs) (by simp [hstart])
  intro c hc hi hn r hr
  rcases (h c hc).settled hi hn with hl | hl
  · cases hr.symm.trans hl
  · exact hl.symm.trans hr

instance (parseInput : V → Except InputError I) (a : Session.Action V) :
    Decidable (Succeeds parseInput a) := by
  unfold Succeeds
  split
  · infer_instance
  · infer_instance
  · exact .isTrue trivial

instance (s : Session V I) (a : Session.Action V) : Decidable (NoReturn s a) := by
  unfold NoReturn
  split
  · infer_instance
  · exact .isTrue trivial

def sampleSession : Session Unit Unit := { roleState := false }

/-- The idle connection receives one chunk with the given revisions and handles it. -/
def receiveChunk (revs : List Revision) : List (Session.Action Unit) :=
  .connection (.chunk (.items (revs.map fun r => .snapshot ⟨r, ()⟩))) ::
    List.replicate (revs.length + 1) (.connection .ingest)

/-- The candidate is taken and its apply succeeds. -/
def applyCandidate : List (Session.Action Unit) :=
  [.connection .drive, .connection .drive, .connection (.applyReturns (.ok ())),
    .connection .drive]

/-- A snapshot that returns to the applied revision during an apply is applied. -/
theorem applied_last_after_return_during_apply :
    ∃ s, (Session.system Except.ok).Steps (fun s a => Succeeds Except.ok a ∧ NoReturn s a)
        sampleSession s ∧
      s.applied.revision = some "a" ∧ Reconciled s :=
  Lts.exists_steps_and
    ([.connect 0, .connection .drive] ++ receiveChunk ["a"] ++ applyCandidate ++
      receiveChunk ["b"] ++ [.connection .drive, .connection .drive] ++
      receiveChunk ["c", "a"] ++
      [.connection .drive, .connection (.applyReturns (.ok ()))] ++ applyCandidate)
    (by decide) fun s hs => settled_connection_applied_last Except.ok sampleSession s rfl hs

/-- One chunk carries a new revision and then the applied one.  The second snapshot
is reported, the first is applied. -/
theorem stale_candidate_applied_after_return :
    ∃ s, (Session.system Except.ok).Steps (fun _ a => Succeeds Except.ok a) sampleSession s ∧
      ¬ Reconciled s := by
  have he : ∃ s ∈ (Session.system Except.ok).execWhile
        (fun _ a => Succeeds Except.ok a) sampleSession
        ([.connect 0, .connection .drive] ++ receiveChunk ["a"] ++ applyCandidate ++
          receiveChunk ["b", "a"] ++ applyCandidate),
      ∃ c ∈ s.connection, c.phase = .idle ∧ c.queue.pending = none ∧
        lastReceived c.events = some "a" ∧ s.applied.revision = some "b" := by
    decide
  obtain ⟨s, hs, c, hc, hi, hn, hl, ha⟩ := he
  refine ⟨s, .of_execWhile hs, fun h => ?_⟩
  have hb : some "b" = some "a" := ha.symm.trans (h c hc hi hn "a" hl)
  simp at hb

end Runewarp.ManagedSession
