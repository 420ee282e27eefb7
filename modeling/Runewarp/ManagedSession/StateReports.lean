import Mathlib.Data.List.Chain
import Runewarp.ManagedSession.Reporting

/-!
# What the state requests report

Every call of `drive_report` either leaves the report as it is or starts a request
(`Drives`).  A turn makes at most one change to the report before such a call: it schedules
the applied revision, notes a change of the role, or takes note of a finished request.

Between the moment `applied` is set and the moment its revision is scheduled, an event is
awaited, but `drive_report` is not called.  That is the only place where the scheduled
revision may lag behind the applied one.
-/

namespace Runewarp.ManagedSession

variable {V I : Type}

/-- What one call of `drive_report` does. -/
inductive Drives (now : Instant) (r : ReportState) : ReportState → Prop where
  | waits : Drives now r r
  | starts {revision : Revision} :
      r.inFlight = none →
      r.pending = true →
      r.revision = some revision →
      (∀ last, r.lastStarted = some last → last + stateRequestSpacing ≤ now) →
      Drives now r { r with
        pending := false
        lastStarted := some now
        inFlight := some revision }

theorem Drives.of_eq {now : Instant} {r r' : ReportState} (h : r' = r) : Drives now r r' :=
  h ▸ .waits

namespace ConnectionLifecycle

theorem drives_driveReport (c : ConnectionLifecycle V I) (now : Instant) :
    Drives now c.report (c.driveReport now).report := by
  unfold driveReport
  split
  · exact .waits
  · next hf =>
    rw [not_or, not_not] at hf
    split
    · exact .waits
    · next revision hr =>
      split
      · exact .waits
      · next hs =>
        refine .starts hf.1 (by simpa using hf.2) hr fun last hl => ?_
        by_contra hlt
        refine hs ⟨last + stateRequestSpacing, ?_, Nat.lt_of_not_le hlt⟩
        rw [ReportState.nextStartAt, hl]
        rfl

/-- The report is driven, or the applied revision is scheduled. -/
def Reports (now : Instant) (applied : AppliedRevision) (r r' : ReportState) : Prop :=
  Drives now r r' ∨ ∃ revision, applied.revision = some revision ∧
    Drives now { r with revision := some revision, pending := true } r'

theorem drives_scheduleReport (c : ConnectionLifecycle V I) (now : Instant) (revision : Revision) :
    Drives now { c.report with revision := some revision, pending := true }
      (c.scheduleReport now revision).report :=
  drives_driveReport { c with report := _ } now

theorem reports_take (c : ConnectionLifecycle V I) (now : Instant) (applied : AppliedRevision) :
    Reports now applied c.report (c.take now applied).report := by
  unfold take
  split
  · next pending queue _ =>
    split
    · next hm =>
      exact .inr ⟨pending.revision, by simpa using hm,
        drives_scheduleReport { c with queue := queue.finishApply } now pending.revision⟩
    · exact .inl .waits
  · exact .inl .waits

theorem reports_acceptEnvelope {parseInput : V → Except InputError I} {now : Instant}
    {applied : AppliedRevision} {c c' : ConnectionLifecycle V I} {envelope : SnapshotEnvelope V}
    (h : c.acceptEnvelope parseInput now applied envelope = .ok c') :
    Reports now applied c.report c'.report := by
  unfold acceptEnvelope at h
  split at h
  · next hm =>
    cases h
    exact .inr ⟨envelope.revision, by simpa using hm.2, drives_scheduleReport c now _⟩
  · split at h
    · cases h
      rw [noteSnapshot_eq]
      exact .inl .waits
    · cases h
    · cases h
      exact .inl .waits

end ConnectionLifecycle

namespace Reporting

open ConnectionLifecycle (Reports)

/-- What a turn does up to its first pause, by what it does to the report. -/
inductive Turns (s : Reporting V I) : ConnectionLifecycle.Action V → Reporting V I → Prop where
  | ends {a : ConnectionLifecycle.Action V} : Turns s a { s with ended := true }
  | drives {a : ConnectionLifecycle.Action V} {pause : Option (Pause V I)}
      {c : ConnectionLifecycle V I} :
      a ≠ .roleStateChanged →
      (∀ snapshot, pause ≠ some (.schedule snapshot)) →
      Drives s.now s.connection.report c.report →
      Turns s a (s.goOn pause (.ok (s.applied, c)))
  | applied {result : Except ApplyError Unit} {snapshot : QueuedSnapshot I}
      {c : ConnectionLifecycle V I} :
      c.report = s.connection.report →
      Turns s (.applyReturns result)
        (s.goOn (some (.schedule snapshot)) (.ok (s.applied.set snapshot.revision, c)))
  | notes {c : ConnectionLifecycle V I} :
      c.report = s.connection.report ∧ s.connection.report.revision = none ∨
        Drives s.now { s.connection.report with pending := true } c.report →
      Turns s .roleStateChanged (s.goOn none (.ok (s.applied, c)))
  | finishes {result : ReportResult} {c : ConnectionLifecycle V I} :
      Drives s.now { s.connection.report with inFlight := none } c.report →
      Turns s (.reportReturns result) (s.goOn none (.ok (s.applied, c)))

section Turns

variable {parseInput : V → Except InputError I} {s s' : Reporting V I}
  {a : ConnectionLifecycle.Action V}

theorem Turns.quiet {c : ConnectionLifecycle V I} (ha : a ≠ .roleStateChanged)
    (h : c.report = s.connection.report) : Turns s a (s.goOn none (.ok (s.applied, c))) := by
  refine .drives ha (fun _ hp => by cases hp) ?_
  rw [h]
  exact .waits

theorem turns_noteRoleStateChanged :
    Turns s .roleStateChanged (s.goOn none (.ok (s.applied,
      { s.connection with control := .top }.noteRoleStateChanged s.now))) := by
  refine .notes ?_
  unfold ConnectionLifecycle.noteRoleStateChanged
  split
  · next hn => exact .inl ⟨rfl, hn⟩
  · exact .inr (ConnectionLifecycle.drives_driveReport
      { s.connection with report := _, control := .top } s.now)

theorem turns_of_step {outcome : Except ManagedSessionError
    (AppliedRevision × ConnectionLifecycle V I)}
    (h : s.connection.step parseInput s.now s.applied a = some outcome)
    (hd : s.connection.control = .top → a ≠ .drive)
    (hi : ∀ envelope items, s.connection.control = .ingest (.snapshot envelope :: items) →
      a ≠ .ingest)
    (ha : a ≠ .applyReturns (.ok ())) : Turns s a (s.goOn none outcome) := by
  cases outcome with
  | error e => exact .ends
  | ok next =>
    unfold ConnectionLifecycle.step at h
    split at h
    · next ht => exact absurd rfl (hd ht)
    · cases h
      exact .quiet (by simp) rfl
    · next item items hit =>
      cases item with
      | ignored =>
        cases h
        exact .quiet (by simp) rfl
      | invalid => cases h
      | snapshot envelope => exact absurd rfl (hi envelope items hit)
    · next wake chunk _ =>
      obtain ⟨c, hc, rfl⟩ := map_ok (Option.some.inj h)
      cases chunk with
      | empty | items items =>
        cases hc
        exact .quiet (by simp) rfl
      | _ => cases hc
    · split at h
      · obtain ⟨_, _, rfl⟩ := map_ok (Option.some.inj h)
        exact .quiet (by simp) rfl
      · cases h
    · next wake result _ =>
      split at h
      · cases result with
        | ok => exact absurd rfl ha
        | error e =>
          cases h
          exact .quiet (by simp) rfl
      · cases h
    · next wake result _ =>
      split at h
      · cases h
      · obtain ⟨c, hc, rfl⟩ := map_ok (Option.some.inj h)
        cases result with
        | acknowledged =>
          cases hc
          exact .finishes (ConnectionLifecycle.drives_driveReport
            { s.connection with report := _, control := .top } s.now)
        | _ => cases hc
    · split at h
      · cases h
        exact .quiet (by simp) rfl
      · cases h
    · split at h
      · cases h
        exact turns_noteRoleStateChanged
      · cases h
    · cases h

theorem turns_of_turn (h : s.turn parseInput a = some s') : Turns s a s' := by
  unfold turn at h
  split at h
  · cases h
    exact .drives (by simp) (fun _ hp => by cases hp) (s.connection.drives_driveReport s.now)
  · split at h
    · cases h
      exact .ends
    · cases h
      exact .drives (by simp) (fun _ hp => by cases hp) .waits
  · split at h
    · cases h
      exact .applied rfl
    · cases h
  · next hd hin hap =>
    obtain ⟨outcome, hs, rfl⟩ := Option.map_eq_some_iff.mp h
    refine turns_of_step hs (fun ht ha => hd ht ha)
      (fun envelope items hi ha => hin envelope items hi ha) ?_
    rintro rfl
    cases hc : s.connection.control with
    | select wake => exact hap wake hc rfl
    | _ => simp [ConnectionLifecycle.step, hc] at hs

end Turns

/-! ## The history of the requests -/

/-- How many notifications had come when the newest request started. -/
def covered (requests : List StateRequest) : Nat :=
  (requests.head?.map StateRequest.notices).getD 0

/-- What the history says of every request. -/
structure History (requests : List StateRequest) (lastStarted : Option Instant) (notices : Nat) :
    Prop where
  newest : lastStarted = requests.head?.map StateRequest.startedAt
  carries : ∀ r ∈ requests, r.applied = some r.revision
  finished : ∀ r ∈ requests.tail, r.finished = true
  spaced : requests.IsChain fun newer older =>
    older.startedAt + stateRequestSpacing ≤ newer.startedAt
  before : ∀ r ∈ requests, r.notices ≤ notices
  rendered : ∀ r ∈ requests, ∀ k ∈ r.rendered, r.notices ≤ k

section History

variable {requests : List StateRequest} {lastStarted : Option Instant} {notices : Nat}

theorem History.notify (h : History requests lastStarted notices) :
    History requests lastStarted (notices + 1) :=
  { h with before := fun r hr => Nat.le_succ_of_le (h.before r hr) }

/-- A request starts when those before it are finished and the spacing allows. -/
theorem History.start {revision : Revision} {now : Instant}
    (h : History requests lastStarted notices) (ha : ∀ r ∈ requests, r.finished = true)
    (hs : ∀ last, lastStarted = some last → last + stateRequestSpacing ≤ now) :
    History (⟨revision, some revision, now, notices, none, false⟩ :: requests) (some now)
      notices where
  newest := rfl
  carries r hr := by
    rcases List.mem_cons.mp hr with rfl | hr
    · rfl
    · exact h.carries r hr
  finished := ha
  spaced := by
    refine List.isChain_cons.mpr ⟨fun older holder => ?_, h.spaced⟩
    refine hs older.startedAt ?_
    rw [h.newest, Option.mem_def.mp holder]
    rfl
  before r hr := by
    rcases List.mem_cons.mp hr with rfl | hr
    · exact le_rfl
    · exact h.before r hr
  rendered r hr k hk := by
    rcases List.mem_cons.mp hr with rfl | hr
    · cases hk
    · exact h.rendered r hr k hk

theorem History.update {f : StateRequest → StateRequest} (h : History requests lastStarted notices)
    (hrv : ∀ r, (f r).revision = r.revision) (ha : ∀ r, (f r).applied = r.applied)
    (hs : ∀ r, (f r).startedAt = r.startedAt) (hn : ∀ r, (f r).notices = r.notices)
    (hre : ∀ r, ∀ k ∈ (f r).rendered, k ∈ r.rendered ∨ k = notices) :
    History (updateNewest f requests) lastStarted notices := by
  cases requests with
  | nil => exact h
  | cons newest rest =>
    refine ⟨?_, ?_, h.finished, ?_, ?_, ?_⟩
    · rw [h.newest]
      exact congrArg some (hs newest).symm
    · refine List.forall_mem_cons.mpr ⟨?_, fun r hr => h.carries r (.tail _ hr)⟩
      rw [ha, hrv]
      exact h.carries newest (.head _)
    · refine List.isChain_cons.mpr ⟨fun older holder => ?_, (List.isChain_cons.mp h.spaced).2⟩
      rw [hs]
      exact (List.isChain_cons.mp h.spaced).1 older holder
    · refine List.forall_mem_cons.mpr ⟨?_, fun r hr => h.before r (.tail _ hr)⟩
      rw [hn]
      exact h.before newest (.head _)
    · refine List.forall_mem_cons.mpr ⟨fun k hk => ?_,
        fun r hr => h.rendered r (.tail _ hr)⟩
      rw [hn]
      rcases hre newest k hk with hk | rfl
      · exact h.rendered newest (.head _) k hk
      · exact h.before newest (.head _)

theorem covered_updateNewest (f : StateRequest → StateRequest)
    (hn : ∀ r, (f r).notices = r.notices) :
    covered (updateNewest f requests) = covered requests := by
  cases requests with
  | nil => rfl
  | cons newest rest => exact hn newest

theorem History.finish (h : History requests lastStarted notices) :
    History (updateNewest StateRequest.finish requests) lastStarted notices ∧
      ∀ r ∈ updateNewest StateRequest.finish requests, r.finished = true := by
  refine ⟨h.update (fun _ => rfl) (fun _ => rfl) (fun _ => rfl) (fun _ => rfl)
    fun _ _ hk => .inl hk, ?_⟩
  cases requests with
  | nil => exact fun r hr => by cases hr
  | cons newest rest => exact List.forall_mem_cons.mpr ⟨rfl, h.finished⟩

theorem History.render (h : History requests lastStarted notices) :
    History (updateNewest (StateRequest.render notices) requests) lastStarted notices := by
  refine h.update (fun _ => rfl) (fun _ => rfl) (fun _ => rfl) (fun _ => rfl) fun r k hk => ?_
  simp only [StateRequest.render] at hk
  cases hr : r.rendered with
  | none =>
    rw [hr] at hk
    exact .inr (Option.some.inj hk).symm
  | some k' =>
    rw [hr] at hk
    exact .inl hk

end History

/-! ## Runs -/

/-- What holds of a connection between any two steps. -/
structure Sound (s : Reporting V I) : Prop where
  history : History s.requests s.connection.report.lastStarted s.notices
  /-- When nothing is in flight, everything is finished. -/
  idle : s.ended = false → s.connection.report.inFlight = none →
    ∀ r ∈ s.requests, r.finished = true
  scheduled : (∀ snapshot, s.pause ≠ some (.schedule snapshot)) → ∀ revision,
    s.connection.report.revision = some revision → s.applied.revision = some revision
  paused : ∀ snapshot, s.pause = some (.schedule snapshot) →
    s.applied.revision = some snapshot.revision

/-- A notification that no request covers is held, or a document is pending. -/
def Pending (s : Reporting V I) : Prop :=
  s.connection.report.revision ≠ none → covered s.requests < s.notices →
    s.changed.isHeld = true ∨ s.connection.report.pending = true

section Runs

variable {s s' : Reporting V I} {applied : AppliedRevision} {c : ConnectionLifecycle V I}
  {r : ReportState} {pause : Option (Pause V I)}

/-- What a call of `drive_report` adds to the history. -/
theorem record_of_drives (applied : AppliedRevision) (h : Drives s.now r c.report)
    (hl : r.lastStarted = s.connection.report.lastStarted) :
    c.report = r ∧ s.record applied c = s.requests ∨
      ∃ revision, r.inFlight = none ∧ r.revision = some revision ∧
        (∀ last, s.connection.report.lastStarted = some last → last + stateRequestSpacing ≤ s.now) ∧
        c.report.lastStarted = some s.now ∧ c.report.inFlight = some revision ∧
        c.report.revision = some revision ∧
        s.record applied c = s.startedRequest applied revision :: s.requests := by
  generalize hc : c.report = r' at h
  cases h with
  | waits =>
    refine .inl ⟨rfl, ?_⟩
    unfold record
    split
    · rfl
    · rw [hc, if_pos hl]
  | @starts revision hf hp hr hs =>
    rw [hl] at hs
    refine .inr ⟨revision, hf, hr, hs, rfl, rfl, hr, ?_⟩
    have hne : some s.now ≠ s.connection.report.lastStarted := by
      intro heq
      have hlt : s.now < s.now + stateRequestSpacing := Nat.lt_add_of_pos_right (by decide)
      exact absurd (hs s.now heq.symm) (Nat.not_le_of_lt hlt)
    unfold record
    rw [hc]
    exact if_neg hne

/-- A call of `drive_report`, after a change that schedules nothing but the applied
revision. -/
theorem Sound.drives (h : s.Sound) (hd : Drives s.now r c.report)
    (hl : r.lastStarted = s.connection.report.lastStarted)
    (hi : r.inFlight = none → ∀ x ∈ s.requests, x.finished = true)
    (hs : ∀ revision, r.revision = some revision → s.applied.revision = some revision)
    (hpa : ∀ snapshot, pause ≠ some (.schedule snapshot)) :
    (s.goOn pause (.ok (s.applied, c))).Sound := by
  obtain ⟨hc, hr⟩ | ⟨revision, hfr, hre, hsp, hl', hf, hr', hr⟩ :=
    record_of_drives s.applied hd hl
  · refine ⟨?_, fun _ hn => ?_, fun _ revision hrv => ?_,
      fun snapshot hp => absurd hp (hpa snapshot)⟩
    · simp only [goOn, hr, hc, hl]
      exact h.history
    · simp only [goOn, hr, hc] at hn ⊢
      exact hi hn
    · simp only [goOn, hc] at hrv ⊢
      exact hs revision hrv
  · refine ⟨?_, fun _ hn => ?_, fun _ revision' hrv => ?_,
      fun snapshot hp => absurd hp (hpa snapshot)⟩
    · simp only [goOn, hr, hl', startedRequest, hs revision hre]
      exact h.history.start (hi hfr) hsp
    · simp only [goOn, hf] at hn
      cases hn
    · simp only [goOn, hr'] at hrv ⊢
      cases hrv
      exact hs revision hre

theorem Pending.drives (hd : Drives s.now r c.report)
    (hl : r.lastStarted = s.connection.report.lastStarted)
    (hp : r.revision ≠ none → covered s.requests < s.notices →
      s.changed.isHeld = true ∨ r.pending = true) :
    (s.goOn pause (.ok (applied, c))).Pending := by
  obtain ⟨hc, hre⟩ | ⟨revision, -, -, -, -, -, -, hre⟩ :=
    record_of_drives applied hd hl
  · intro hr hco
    simp only [goOn, hc, hre] at hr hco ⊢
    exact hp hr hco
  · intro _ hco
    simp only [goOn, hre] at hco
    exact absurd hco (Nat.lt_irrefl _)

theorem goOn_of_reports (pause : Option (Pause V I)) (h : s.Sound) (hp : s.Pending)
    (hre : ∀ revision, s.connection.report.revision = some revision →
      s.applied.revision = some revision)
    (hi : s.connection.report.inFlight = none → ∀ x ∈ s.requests, x.finished = true)
    (hpa : ∀ snapshot, pause ≠ some (.schedule snapshot))
    (hr : Reports s.now s.applied s.connection.report c.report) :
    (s.goOn pause (.ok (s.applied, c))).Sound ∧ (s.goOn pause (.ok (s.applied, c))).Pending := by
  rcases hr with hd | ⟨revision, ha, hd⟩
  · exact ⟨h.drives hd rfl hi hre hpa, Pending.drives hd rfl hp⟩
  · refine ⟨h.drives hd rfl hi ?_ hpa, Pending.drives hd rfl fun _ _ => .inr rfl⟩
    rintro _ ⟨⟩
    exact ha

variable {a : ConnectionLifecycle.Action V}

theorem Turns.sound (ht : Turns s a s') (h : s.Sound) (hli : s.ended = false) (hp : s.pause = none)
    (hfi : ∀ result, a = .reportReturns result → ∀ x ∈ s.requests, x.finished = true) :
    s'.Sound := by
  have hs := h.scheduled (by simp [hp])
  cases ht with
  | ends => exact ⟨h.history, fun hl => (by cases hl), h.scheduled, h.paused⟩
  | drives _ hp' hd => exact h.drives hd rfl (h.idle hli) hs hp'
  | @applied result snapshot c hc =>
    obtain ⟨-, hr⟩ | ⟨revision, hfr, hre, -, hla, hf, -⟩ :=
      record_of_drives (s.applied.set snapshot.revision) (.of_eq hc) rfl
    · refine ⟨?_, fun _ => ?_, fun hne => absurd rfl (hne _), ?_⟩
      · simp only [goOn, hr, hc]
        exact h.history
      · simp only [goOn, hr, hc]
        exact h.idle hli
      · rintro _ ⟨⟩
        rfl
    · rw [hc, hfr] at hf
      cases hf
  | notes hc =>
    rcases hc with ⟨hc, -⟩ | hd
    · exact h.drives (.of_eq hc) rfl (h.idle hli) hs (by simp)
    · exact h.drives hd rfl (h.idle hli) hs (by simp)
  | finishes hd => exact h.drives hd rfl (fun _ => hfi _ rfl) hs (by simp)

/-- What is pending stays so in a turn that takes no notification. -/
theorem Turns.pending (ht : Turns s a s') (ha : a ≠ .roleStateChanged) (h : s.Pending) :
    s'.Pending := by
  cases ht with
  | ends => exact h
  | drives _ _ hd => exact Pending.drives hd rfl h
  | applied hc => exact Pending.drives (.of_eq hc) rfl h
  | notes => exact absurd rfl ha
  | finishes hd => exact Pending.drives hd rfl h

/-- The turn that takes a notification leaves a document pending, or starts its request. -/
theorem Turns.pending_of_notes (ht : Turns s .roleStateChanged s') (hne : s'.ended = false) :
    s'.Pending := by
  cases ht with
  | ends => cases hne
  | drives ha => exact absurd rfl ha
  | notes hc =>
    rcases hc with ⟨hc, hn⟩ | hd
    · exact Pending.drives (.of_eq hc) rfl fun hr => absurd hn hr
    · exact Pending.drives hd rfl fun _ _ => .inr rfl

/-- What every step keeps. -/
structure Inv (s : Reporting V I) : Prop where
  sound : s.Sound
  pending : s.ended = false → s.Pending

variable {parseInput : V → Except InputError I}

theorem Inv.proceed {place : Pause V I} (h : s.Inv) (hli : s.ended = false)
    (hpa : s.pause = some place) : (s.proceed parseInput place).Inv := by
  have hp := h.pending hli
  have hi := h.sound.idle hli
  have he : ({ s with ended := true } : Reporting V I).Inv :=
    ⟨⟨h.sound.history, fun hl => (by cases hl), h.sound.scheduled, h.sound.paused⟩,
      fun hl => by cases hl⟩
  cases place with
  | timer =>
    simp only [Reporting.proceed]
    split
    · refine ⟨⟨h.sound.history, h.sound.idle, fun _ => h.sound.scheduled ?_, ?_⟩, fun _ => hp⟩
      · rw [hpa]
        simp
      · rintro _ ⟨⟩
    · exact he
  | take =>
    have hs := h.sound.scheduled (by simp [hpa])
    obtain ⟨hso, hpe⟩ := goOn_of_reports none h.sound hp hs hi
      (by simp) (s.connection.reports_take s.now s.applied)
    exact ⟨hso, fun _ => hpe⟩
  | accept envelope =>
    have hs := h.sound.scheduled (by simp [hpa])
    simp only [Reporting.proceed]
    cases hc : s.connection.acceptEnvelope parseInput s.now s.applied envelope with
    | error e => exact he
    | ok c =>
      obtain ⟨hso, hpe⟩ := goOn_of_reports none h.sound hp hs
        hi (by simp) (ConnectionLifecycle.reports_acceptEnvelope hc)
      exact ⟨hso, fun _ => hpe⟩
  | schedule snapshot =>
    have hd := s.connection.drives_scheduleReport s.now snapshot.revision
    refine ⟨h.sound.drives hd rfl hi ?_ (by simp), fun _ => Pending.drives hd rfl
      fun _ _ => .inr rfl⟩
    rintro _ ⟨⟩
    exact h.sound.paused snapshot hpa

theorem Inv.turn (h : s.Inv) (hl : s.ended = false) (hp : s.pause = none)
    (hs : (system parseInput).step s (.turn a) = some s') : s'.Inv := by
  obtain ⟨-, hs⟩ := Option.ite_none_right_eq_some.mp hs
  have hd : ({ s with changed := s.changed.dropWaiter } : Reporting V I).Pending := by
    intro hr hc
    rw [Notify.isHeld_dropWaiter]
    exact h.pending hl hr hc
  have hso : ∀ {changed : Notify}, ({ s with changed := changed } : Reporting V I).Sound :=
    ⟨h.sound.history, h.sound.idle, h.sound.scheduled, h.sound.paused⟩
  have ho : (∀ result, a ≠ .reportReturns result) → a ≠ .roleStateChanged →
      Turns { s with changed := s.changed.dropWaiter } a s' → s'.Inv := by
    intro hre hro ht
    exact ⟨ht.sound hso hl hp fun result ha => absurd ha (hre result),
      fun _ => ht.pending hro hd⟩
  cases a with
  | roleStateChanged =>
    obtain ⟨-, htu⟩ := Option.ite_none_right_eq_some.mp hs
    have ht := turns_of_turn htu
    exact ⟨ht.sound hso hl hp fun _ ha => (by cases ha), ht.pending_of_notes⟩
  | reportReturns result =>
    obtain ⟨-, htu⟩ := Option.ite_none_right_eq_some.mp hs
    have ht := turns_of_turn htu
    obtain ⟨hh, hal⟩ := h.sound.history.finish
    refine ⟨ht.sound ⟨hh, fun _ _ => hal, h.sound.scheduled, h.sound.paused⟩ hl hp
      (fun _ _ => hal), fun _ => ht.pending (by simp) ?_⟩
    intro hr hc
    rw [covered_updateNewest StateRequest.finish fun _ => rfl] at hc
    exact hd hr hc
  | _ =>
    exact ho (by simp) (by simp) (turns_of_turn hs)

theorem Inv.step {a : Action V} (h : s.Inv) (hs : (system parseInput).step s a = some s') :
    s'.Inv := by
  cases a with
  | tick elapsed =>
    cases hs
    exact ⟨⟨h.sound.history, h.sound.idle, h.sound.scheduled, h.sound.paused⟩, h.pending⟩
  | notify =>
    cases hs
    exact ⟨⟨h.sound.history.notify, h.sound.idle, h.sound.scheduled, h.sound.paused⟩,
      fun _ _ _ => .inl (s.changed.isHeld_notifyOne)⟩
  | render =>
    obtain ⟨⟨-, -, hf⟩, ⟨⟩⟩ := Option.ite_some_none_eq_some.mp hs
    refine ⟨⟨h.sound.history.render, fun _ hn => absurd hn hf, h.sound.scheduled,
      h.sound.paused⟩, fun hl hr hc => ?_⟩
    rw [covered_updateNewest (StateRequest.render s.notices) fun _ => rfl] at hc
    exact h.pending hl hr hc
  | waits =>
    obtain ⟨⟨-, -, -, hpo⟩, ⟨⟩⟩ := Option.ite_some_none_eq_some.mp hs
    refine ⟨⟨h.sound.history, h.sound.idle, h.sound.scheduled, h.sound.paused⟩,
      fun hl hr hc => ?_⟩
    rw [s.changed.isHeld_poll hpo]
    exact h.pending hl hr hc
  | turn a =>
    obtain ⟨⟨hl, hp⟩, -⟩ := Option.ite_none_right_eq_some.mp hs
    exact h.turn hl hp hs
  | proceed =>
    obtain ⟨hl, heq⟩ := Option.ite_none_left_eq_some.mp hs
    obtain ⟨place, hp, rfl⟩ := Option.map_eq_some_iff.mp heq
    exact h.proceed (by simpa using hl) hp

theorem inv_of_reaches {now startedAt : Instant} {applied : AppliedRevision} {roleState : Bool}
    {changed : Notify}
    (h : (system parseInput).Reaches (connect now startedAt applied roleState changed) s) :
    s.Inv := by
  refine h.invariant (I := Inv) (fun _ _ _ hi _ hs => hi.step hs) ⟨⟨?_, ?_, ?_, ?_⟩, ?_⟩
  · exact ⟨rfl, by simp [connect], by simp [connect], by simp [connect], by simp [connect],
      by simp [connect]⟩
  · intro _ _ r hr
    cases hr
  · intro _ revision hr
    cases hr
  · intro snapshot hp
    cases hp
  · intro _ hr
    exact absurd rfl hr

/-- A notification that is held can be taken at the `select!`, and a document is pending
then or its request starts. -/
theorem takes_notification (hl : s.ended = false) (hs : s.atSelect = true)
    (hro : s.connection.roleState = true) (hh : s.changed.isHeld = true) :
    ∃ s', (system parseInput).step s (.turn .roleStateChanged) = some s' ∧
      (s.connection.report.revision ≠ none → s'.connection.report.pending = true ∨
        ∃ r, s'.requests = r :: s.requests ∧ r.notices = s.notices) := by
  obtain ⟨hp, wake, hco⟩ :
      s.pause = none ∧ ∃ wake, s.connection.control = .select wake := by
    unfold atSelect at hs
    split at hs
    · next wake hp hco => exact ⟨hp, wake, hco⟩
    · cases hs
  let s₁ : Reporting V I := { s with changed := s.changed.poll.2 }
  let c : ConnectionLifecycle V I :=
    { s.connection with control := .top }.noteRoleStateChanged s.now
  have hst : (system parseInput).step s (.turn .roleStateChanged) =
      some (s₁.goOn none (.ok (s.applied, c))) := by
    simp [system, step, hl, hp, s.changed.poll_fst, hh, turn, hco,
      ConnectionLifecycle.step, hro, s₁, c]
  refine ⟨_, hst, fun hr => ?_⟩
  let c₁ : ConnectionLifecycle V I :=
    { s.connection with
      report := { s.connection.report with pending := true }, control := .top }
  have hc : c = c₁.driveReport s.now := if_neg hr
  have hd : Drives s₁.now c₁.report c.report := by
    rw [hc]
    exact c₁.drives_driveReport s.now
  obtain ⟨hsa, -⟩ | ⟨revision, -, -, -, -, -, -, hre⟩ := record_of_drives s.applied hd rfl
  · exact .inl (congrArg ReportState.pending hsa)
  · exact .inr ⟨_, hre, rfl⟩

end Runs

/-- On every connection, at every moment: each state request carries the revision that was
applied when it started; all requests but the newest are finished; the starts of two are a
second apart; and when a revision has been scheduled, every notification is covered by a
request that started after it, and whose document is rendered after it, or it is still
held, or a document is pending.  A notification that is held can be taken, and a document
is pending then or its request starts. -/
theorem state_requests {parseInput : V → Except InputError I} {now startedAt : Instant}
    {applied : AppliedRevision} {roleState : Bool} {changed : Notify} {s : Reporting V I}
    (hrun : (system parseInput).Reaches (connect now startedAt applied roleState changed) s) :
    (∀ r ∈ s.requests, r.applied = some r.revision) ∧
    (∀ r ∈ s.requests.tail, r.finished = true) ∧
    s.requests.IsChain
        (fun newer older => older.startedAt + stateRequestSpacing ≤ newer.startedAt) ∧
    (s.ended = false → s.connection.report.revision ≠ none → ∀ k, 0 < k → k ≤ s.notices →
      (∃ r ∈ s.requests, k ≤ r.notices ∧ ∀ n ∈ r.rendered, k ≤ n) ∨
        s.changed.isHeld = true ∨ s.connection.report.pending = true) ∧
    (s.ended = false → s.atSelect = true → s.connection.roleState = true →
      s.changed.isHeld = true →
      ∃ s', (system parseInput).step s (.turn .roleStateChanged) = some s' ∧
        (s.connection.report.revision ≠ none → s'.connection.report.pending = true ∨
          ∃ r, s'.requests = r :: s.requests ∧ r.notices = s.notices)) := by
  have hi := inv_of_reaches hrun
  have hh := hi.sound.history
  refine ⟨hh.carries, hh.finished, hh.spaced, ?_, takes_notification⟩
  intro hl hre k hp hk
  by_cases hc : covered s.requests < s.notices
  · exact .inr (hi.pending hl hre hc)
  · have hle : k ≤ covered s.requests := hk.trans (Nat.le_of_not_lt hc)
    cases hr : s.requests with
    | nil =>
      rw [hr] at hle
      exact absurd hp (Nat.not_lt_of_le hle)
    | cons newest rest =>
      rw [hr] at hle hh
      exact .inl ⟨newest, .head _, hle, fun n hn =>
        hle.trans (hh.rendered newest (.head _) n hn)⟩

/-- The top of the loop up to its `select!`, or to the apply of a candidate. -/
def driveOn : List (Action Unit) := [.turn .drive, .proceed, .proceed]

/-- A snapshot is applied and reported.  While its request is in flight the role changes,
and the second request starts a second after the first. -/
def applyThenChange : List (Action Unit) :=
  driveOn ++
    [.turn (.chunk (.items [.snapshot ⟨"a", ()⟩])), .turn .ingest, .proceed, .turn .ingest] ++
    driveOn ++ driveOn ++ [.turn (.applyReturns (.ok ())), .proceed] ++
    driveOn ++ [.render, .notify, .turn .roleStateChanged] ++
    driveOn ++ [.turn (.reportReturns .acknowledged), .tick 1000, .turn .drive]

theorem state_requests_after_change :
    ∃ s : Reporting Unit Unit,
      (system Except.ok).Reaches (connect 0 0 {} true {}) s ∧
      s.requests.map StateRequest.startedAt = [1000, 0] ∧
      (∀ r ∈ s.requests, r.applied = some r.revision) ∧
      ∃ r ∈ s.requests, 1 ≤ r.notices := by
  have he : ∃ s ∈ (system (Except.ok : Unit → Except InputError Unit)).exec
      (connect 0 0 {} true {}) applyThenChange,
      s.requests.map StateRequest.startedAt = [1000, 0] ∧ s.ended = false ∧
        s.connection.report.revision ≠ none ∧ s.notices = 1 ∧ s.changed.isHeld = false ∧
        s.connection.report.pending = false := by
    decide
  obtain ⟨s, hs, ht, hl, hre, hn, hh, hp⟩ := he
  have hru := Lts.Reaches.of_exec hs
  obtain ⟨hc, -, -, hco, -⟩ := state_requests hru
  refine ⟨s, hru, ht, hc, ?_⟩
  rcases hco hl hre 1 Nat.one_pos (Nat.le_of_eq hn.symm) with hr | hr | hr
  · obtain ⟨r, hr, hle, -⟩ := hr
    exact ⟨r, hr, hle⟩
  · rw [hh] at hr
    cases hr
  · rw [hp] at hr
    cases hr

end Reporting

end Runewarp.ManagedSession
