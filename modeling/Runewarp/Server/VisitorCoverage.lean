import Runewarp.Lib.Tally
import Runewarp.Server.VisitorIntake

/-!
# Every waiting Visitor is covered by a permit

A Visitor socket costs a descriptor, and the descriptors are divided among the three
Visitor permits.  So a task that waits for a peer has to hold one of them.  The tasks
that hold a permit are no more than the limits; the tasks that wait without one are
those at a lock of the registry, and those that answer an ACME challenge: their permit
was dropped with the ClientHello, and nothing bounds how many they are or how long the
handshake takes.
-/

namespace Runewarp.Server

/-- What a task can wait for. -/
inductive Await where
  | registryLock
  /-- Its first poll, the Visitor, the Tunnel peer, or the challenge validator. -/
  | other
deriving DecidableEq

def IntakePhase.awaits : IntakePhase → Option Await
  | .awaitPools _ | .awaitMembers _ => some .registryLock
  | .spawned | .readingProxy | .readingHello _ | .acmeAccept | .acmeShutdown | .opening _
  | .proxying _ => some .other
  | .selecting _ | .resolved _ | .parsed _ | .handling _ | .forwarding _ | .opened _ | .activated _
  | .registering _ | .proxied | .leaving | .finished => none

/-- The permits of a task in each phase.  Where they are being dropped there may be any. -/
def IntakePhase.permits : IntakePhase → Option (Bool × Bool × Bool)
  | .spawned | .selecting _ | .readingProxy | .resolved _ | .readingHello _ | .parsed _ =>
    some (true, false, false)
  | .handling _ | .acmeAccept | .acmeShutdown | .awaitPools _ | .awaitMembers _ | .forwarding _ =>
    some (false, false, false)
  | .opening _ | .opened _ => some (false, true, false)
  | .activated _ => some (false, true, true)
  | .registering _ | .proxying _ | .proxied => some (false, false, true)
  | .leaving | .finished => none

/-- The ClientHello of an ACME challenge that is answered. -/
def VisitorIntake.answersChallenge (intake : VisitorIntake) (hello : ParsedClientHello) : Bool :=
  decide (hello.publicHostname.asStr = intake.serverHostname.asStr) &&
    hello.offersAlpnProtocol acmeTlsAlpn && intake.publicTlsConfig

/-- An ACME challenge is being answered. -/
def IntakePhase.Challenge : IntakePhase → Prop
  | .acmeAccept | .acmeShutdown => True
  | _ => False

namespace IntakeTask

/-- The socket is open and the task waits for something that is not a lock of the
registry. -/
def Stalled (t : IntakeTask) : Prop := t.socket = true ∧ t.phase.awaits = some .other

instance (t : IntakeTask) : Decidable t.Stalled := inferInstanceAs (Decidable (_ ∧ _))

/-- The task has a permit. -/
def Covered (t : IntakeTask) : Prop :=
  t.visitorPermit.isSome = true ∨ t.pendingOpenPermit = true ∨ t.activeStreamPermit = true

instance (t : IntakeTask) : Decidable t.Covered := inferInstanceAs (Decidable (_ ∨ _))

/-- The permits of a task: before it is routed, while its stream is opened, and while it
is proxied. -/
def permits (t : IntakeTask) : Bool × Bool × Bool :=
  (t.visitorPermit.isSome, t.pendingOpenPermit, t.activeStreamPermit)

/-- A task has the permits of its phase. -/
def Sound (t : IntakeTask) : Prop := ∀ p, t.phase.permits = some p → t.permits = p

theorem sound_of_none {t : IntakeTask} (h : t.phase.permits = none) : t.Sound := by
  intro p hp
  rw [h] at hp
  cases hp

theorem sound_of_some {t : IntakeTask} (h : t.phase.permits = some t.permits) : t.Sound := by
  intro p hp
  rw [h] at hp
  exact Option.some.inj hp

theorem Sound.eq {t : IntakeTask} (h : t.Sound) {v o r : Bool}
    (hp : t.phase.permits = some (v, o, r)) :
    t.visitorPermit.isSome = v ∧ t.pendingOpenPermit = o ∧ t.activeStreamPermit = r := by
  have heq := h _ hp
  simpa only [permits, Prod.mk.injEq] using heq

theorem Sound.covered {t : IntakeTask} (h : t.Sound) (hs : t.Stalled) :
    t.Covered ∨ t.phase.Challenge := by
  obtain ⟨-, ha⟩ := hs
  cases hp : t.phase with
  | acmeAccept | acmeShutdown => exact .inr trivial
  | spawned | readingProxy | readingHello | opening | proxying =>
    obtain ⟨hv, ho, hr⟩ := h.eq (congrArg IntakePhase.permits hp)
    simp [Covered, hv, ho, hr]
  | _ => simp [hp, IntakePhase.awaits] at ha

/-! ## The permits a task has on each semaphore -/

def visitors (t : IntakeTask) : Nat := t.visitorPermit.isSome.toNat

def opens (t : IntakeTask) : Nat := t.pendingOpenPermit.toNat

def streams (t : IntakeTask) : Nat := t.activeStreamPermit.toNat

variable {intake : VisitorIntake} {t t' : IntakeTask} {a a' : VisitorAdmission}
  {event : IntakeEvent}

theorem Covered.pos (h : t.Covered) : 0 < t.visitors + (t.opens + t.streams) := by
  rcases h with h | h | h <;> simp [visitors, opens, streams, h]

/-- The step leads to the answer of a challenge. -/
def beginsChallenge (intake : VisitorIntake) : IntakePhase → IntakeEvent → Bool
  | .handling visitor, .handle _ _ => intake.answersChallenge visitor.1
  | _, _ => false

/-! ## One step -/

/-- What a step can do to the permits. -/
structure StepSpec (intake : VisitorIntake) (t : IntakeTask) (a : VisitorAdmission)
    (event : IntakeEvent) (x : IntakeTask × VisitorAdmission) : Prop where
  sound : x.1.Sound
  visitors : x.2.pendingVisitors.stock + x.1.visitors = a.pendingVisitors.stock + t.visitors
  opens : x.2.pendingStreamOpens.stock + x.1.opens = a.pendingStreamOpens.stock + t.opens
  streams : x.2.activeRoutedStreams.stock + x.1.streams = a.activeRoutedStreams.stock + t.streams
  challenge : beginsChallenge intake t.phase event = false → ¬ t.phase.Challenge →
    ¬ x.1.phase.Challenge

theorem StepSpec.phase {phase : IntakePhase} (h : Sound { t with phase := phase })
    (hc : beginsChallenge intake t.phase event = false → ¬ t.phase.Challenge →
      ¬ phase.Challenge) :
    StepSpec intake t a event ({ t with phase := phase }, a) :=
  ⟨h, rfl, rfl, rfl, hc⟩

theorem resolve_spec (h : t.Sound) (permit : VisitorAdmissionPermit) (a : VisitorAdmission)
    {addresses : VisitorTcpAddresses} (hp : t.phase = .resolved addresses) :
    StepSpec intake t a event (t.resolve a permit addresses) := by
  obtain ⟨hv, ho, hr⟩ := h.eq (congrArg IntakePhase.permits hp)
  unfold resolve
  split
  next permit' a' hok =>
    obtain ⟨sources, rfl⟩ := VisitorAdmission.useCanonicalSource_eq_ok hok
    refine ⟨sound_of_some ?_, ?_, rfl, rfl, fun _ _ => id⟩
    · simp [IntakePhase.permits, permits, ho, hr]
    · simp [visitors, hv]
  next =>
    refine .phase (sound_of_some ?_) fun _ _ => id
    simp [IntakePhase.permits, permits, hv, ho, hr]

theorem leave_spec (hph : t.phase = .leaving) (a : VisitorAdmission) :
    StepSpec intake t a event (t.leave a) := by
  have hn : t.phase.permits = none := by rw [hph]; rfl
  unfold leave
  split
  next permit hp =>
    refine ⟨sound_of_none hn, ?_, rfl, rfl, fun _ => id⟩
    simp [VisitorAdmission.dropVisitor, visitors, hp, Semaphore.stock_release]
  next =>
    split
    next hp =>
      refine ⟨sound_of_none hn, rfl, ?_, rfl, fun _ => id⟩
      simp [VisitorAdmission.dropPendingStreamOpen, opens, hp, Semaphore.stock_release]
    next =>
      split
      next hp =>
        refine ⟨sound_of_none hn, rfl, rfl, ?_, fun _ => id⟩
        simp [VisitorAdmission.dropActiveRoutedStream, streams, hp, Semaphore.stock_release]
      next => exact ⟨sound_of_none rfl, rfl, rfl, rfl, fun _ _ => id⟩

theorem afterProxy_spec (h : t.Sound) (hp : t.phase = .proxied) (a : VisitorAdmission) :
    StepSpec intake t a event (t.afterProxy a) := by
  obtain ⟨hv, ho, hr⟩ := h.eq (congrArg IntakePhase.permits hp)
  unfold afterProxy
  split
  next => exact ⟨h, rfl, rfl, rfl, fun _ => id⟩
  next =>
    refine ⟨sound_of_none rfl, rfl, rfl, ?_, fun _ _ => id⟩
    simp [VisitorAdmission.dropActiveRoutedStream, streams, hr, Semaphore.stock_release]

/-- The first part of `intake_until` comes to a phase with the same permits. -/
theorem beginIntake_permits (intake : VisitorIntake) (direct : VisitorTcpAddresses) :
    (beginIntake intake direct).permits = some (true, false, false) ∧
      ¬ (beginIntake intake direct).Challenge := by
  fun_cases beginIntake <;> exact ⟨rfl, id⟩

theorem proceed_spec (h : t.Sound) (hs : t.proceed intake a = some (t', a')) :
    StepSpec intake t a event (t', a') := by
  unfold proceed at hs
  split at hs
  next direct hph =>
    cases hs
    obtain ⟨hp, hc⟩ := beginIntake_permits intake direct
    refine .phase (sound_of_some ?_) fun _ _ => hc
    exact hp.trans (congrArg some (h _ (congrArg IntakePhase.permits hph)).symm)
  next addresses hph =>
    obtain ⟨permit, hp, heq⟩ := Option.map_eq_some_iff.mp hs
    exact heq ▸ resolve_spec h permit a hph
  next result hph =>
    obtain ⟨permit, hp, heq⟩ := Option.map_eq_some_iff.mp hs
    obtain ⟨hv, ho, hr⟩ := h.eq (congrArg IntakePhase.permits hph)
    cases heq
    refine ⟨?_, ?_, rfl, rfl, ?_⟩
    · rcases result with error | _ | visitor
      · exact sound_of_none rfl
      · exact sound_of_none rfl
      · exact sound_of_some (by simp [IntakePhase.permits, permits, ho, hr])
    · simp [VisitorAdmission.dropVisitor, visitors, hp, Semaphore.stock_release]
    · rcases result with error | _ | visitor <;> exact fun _ _ => id
  next visitor hph =>
    obtain ⟨hv, ho, hr⟩ := h.eq (congrArg IntakePhase.permits hph)
    split at hs
    next a' hok =>
      cases hs
      obtain ⟨semaphore, rfl, hst⟩ := VisitorAdmission.tryAdmitPendingStreamOpen_eq_ok hok
      refine ⟨sound_of_some ?_, rfl, ?_, rfl, fun _ _ => id⟩
      · simp [IntakePhase.permits, permits, hv, hr]
      · simpa [opens, ho] using hst
    next =>
      cases hs
      exact .phase (sound_of_none rfl) fun _ _ => id
  next visitor hph =>
    obtain ⟨hv, ho, hr⟩ := h.eq (congrArg IntakePhase.permits hph)
    split at hs
    next a' hok =>
      cases hs
      obtain ⟨semaphore, rfl, hst⟩ := VisitorAdmission.tryAdmitActiveRoutedStream_eq_ok hok
      refine ⟨sound_of_some ?_, rfl, rfl, ?_, fun _ _ => id⟩
      · simp [IntakePhase.permits, permits, hv, ho]
      · simpa [streams, hr] using hst
    next =>
      cases hs
      exact .phase (sound_of_none rfl) fun _ _ => id
  next visitor hph =>
    obtain ⟨hv, ho, hr⟩ := h.eq (congrArg IntakePhase.permits hph)
    cases hs
    refine ⟨sound_of_some ?_, rfl, ?_, rfl, fun _ _ => id⟩
    · simp [IntakePhase.permits, permits, hv, hr]
    · simp [VisitorAdmission.dropPendingStreamOpen, opens, ho, Semaphore.stock_release]
  next hph => exact Option.some.inj hs ▸ afterProxy_spec h hph a
  next hph => exact Option.some.inj hs ▸ leave_spec hph a
  next => cases hs

/-- Where a task goes that takes or drops nothing: its permits stay, or it is to drop them. -/
structure Next (intake : VisitorIntake) (phase : IntakePhase) (event : IntakeEvent)
    (phase' : IntakePhase) : Prop where
  permits : phase'.permits = none ∨ phase'.permits = phase.permits
  challenge : beginsChallenge intake phase event = false → ¬ phase.Challenge → ¬ phase'.Challenge
  unfinished : phase' ≠ .finished

section

variable {phase phase' : IntakePhase}

theorem Next.leaving : Next intake phase event .leaving := ⟨.inl rfl, fun _ _ => id, by simp⟩

theorem handle_next (visitor : ParsedVisitor) (serving isSealed : Bool) :
    Next intake (.handling visitor) (.handle serving isSealed)
      (handle intake visitor serving isSealed) := by
  fun_cases handle
  case case1 hn ho ht =>
    refine ⟨.inr rfl, fun hno => ?_, by simp⟩
    simp [beginsChallenge, VisitorIntake.answersChallenge, hn, ho, ht] at hno
  case case6 => exact ⟨.inr rfl, fun _ _ => id, by simp⟩
  all_goals exact .leaving

theorem beginProxy_next (visitor : ParsedVisitor) (ok : Bool) :
    Next intake (.registering visitor) (.registered ok) (beginProxy visitor) := by
  unfold beginProxy
  cases encodeTunnelStream visitor.2 visitor.1.bufferedBytes <;>
    exact ⟨.inr rfl, fun _ _ => id, by simp [Option.elim]⟩

theorem dropped_next (hs : dropped phase = some phase') : Next intake phase .drop phase' := by
  unfold dropped at hs
  split at hs <;> cases hs
  case h_9 => exact ⟨.inr rfl, fun _ _ => id, by simp⟩
  all_goals exact .leaving

theorem advance_next (hs : advance intake phase event = some phase') :
    Next intake phase event phase' := by
  unfold advance at hs
  split at hs
  case h_12 visitor serving isSealed =>
    cases hs
    exact handle_next visitor serving isSealed
  case h_18 visitor ok =>
    cases hs
    split
    · exact beginProxy_next visitor ok
    · exact .leaving
  case h_20 => exact dropped_next hs
  case h_21 => cases hs
  all_goals
    cases hs
    first
    | exact .leaving
    | exact ⟨.inr rfl, fun _ => id, by simp⟩
    | split <;> first | exact .leaving | exact ⟨.inr rfl, fun _ => id, by simp⟩

end

theorem step_spec (h : t.Sound) (hs : t.step intake a event = some (t', a')) :
    StepSpec intake t a event (t', a') := by
  unfold step at hs
  split at hs
  next => exact proceed_spec h hs
  next =>
    obtain ⟨phase, hph, heq⟩ := Option.map_eq_some_iff.mp hs
    cases heq
    have hn := advance_next hph
    refine .phase ?_ hn.challenge
    rcases hn.permits with hn | hsa
    · exact sound_of_none hn
    · exact fun p hp => h p (hsa.symm.trans hp)

end IntakeTask

namespace Intake

variable {s s' : Intake} {action : Action} {limits : VisitorLimits}

/-- What a step of the intake does. -/
inductive Move (s : Intake) : Action → Intake → Prop where
  | accept :
      s.admission.tryAdmitVisitorGlobal = .ok (permit, a) →
      Move s .accept
        { s with admission := a, tasks := s.tasks ++ [{ visitorPermit := some permit }] }
  | refuse : Move s .accept s
  | on :
      s.tasks[i]? = some t → t.step s.intake s.admission event = some (t', a) →
      Move s (.on i event) { s with admission := a, tasks := s.tasks.set i t' }

theorem move_of_step (hs : system.step s action = some s') : Move s action s' := by
  cases action with
  | accept =>
    simp only [system, Intake.step] at hs
    split at hs <;> cases hs
    next hok => exact .accept hok
    next => exact .refuse
  | on i event =>
    simp only [system, Intake.step] at hs
    split at hs
    next => cases hs
    next t hi =>
      obtain ⟨⟨t', a⟩, ht', rfl⟩ := Option.map_eq_some_iff.mp hs
      exact .on hi ht'

/-- The step leads to the answer of a challenge. -/
def beginsChallenge (s : Intake) : Action → Bool
  | .accept => false
  | .on i event =>
    match s.tasks[i]? with
    | none => false
    | some t => IntakeTask.beginsChallenge s.intake t.phase event

/-- The permits that are handed out are those of the tasks. -/
structure Accounted (limits : VisitorLimits) (s : Intake) : Prop where
  sound : ∀ t ∈ s.tasks, t.Sound
  visitors : s.admission.pendingVisitors.stock + tally IntakeTask.visitors s.tasks =
    limits.maxPendingVisitors
  opens : s.admission.pendingStreamOpens.stock + tally IntakeTask.opens s.tasks =
    limits.maxPendingStreamOpens
  streams : s.admission.activeRoutedStreams.stock + tally IntakeTask.streams s.tasks =
    limits.maxActiveRoutedStreams

theorem accounted_start (intake : VisitorIntake) (limits : VisitorLimits) :
    Accounted limits (start intake limits) := by
  constructor <;> simp [start, VisitorAdmission.new, Semaphore.stock]

theorem Accounted.step (h : s.Accounted limits) (hs : system.step s action = some s') :
    s'.Accounted limits := by
  cases move_of_step hs with
  | accept hok =>
    obtain ⟨semaphore, rfl, hsc⟩ := VisitorAdmission.tryAdmitVisitorGlobal_eq_ok hok
    refine { h with
      sound := forall_mem_concat h.sound ?_, visitors := ?_, opens := ?_, streams := ?_ }
    · exact IntakeTask.sound_of_some rfl
    · have hvi := h.visitors
      simp only [tally_concat, IntakeTask.visitors, Option.isSome_some, Bool.toNat_true] at *
      omega
    · simpa [IntakeTask.opens] using h.opens
    · simpa [IntakeTask.streams] using h.streams
  | refuse => exact h
  | @on i t t' a event hi ht' =>
    have hs' := tally_set IntakeTask.visitors t' hi
    have hst := tally_set IntakeTask.opens t' hi
    have hse := tally_set IntakeTask.streams t' hi
    obtain ⟨hso, hvi, hop, hsr, -⟩ := IntakeTask.step_spec (h.sound t (List.mem_of_getElem? hi)) ht'
    obtain ⟨-, hv, ho, hr⟩ := id h
    dsimp only at hvi hop hsr
    refine ⟨forall_mem_set h.sound hso, ?_, ?_, ?_⟩
    all_goals
      dsimp only
      omega

/-- No task answers a challenge. -/
def Unchallenged (s : Intake) : Prop := ∀ t ∈ s.tasks, ¬ t.phase.Challenge

theorem Unchallenged.step (h : s.Unchallenged) (ha : s.Accounted limits)
    (hno : s.beginsChallenge action = false) (hs : system.step s action = some s') :
    s'.Unchallenged := by
  cases move_of_step hs with
  | accept => exact forall_mem_concat h id
  | refuse => exact h
  | @on i t t' a event hi ht' =>
    simp only [beginsChallenge, hi] at hno
    have hm := List.mem_of_getElem? hi
    exact forall_mem_set h ((IntakeTask.step_spec (ha.sound t hm) ht').challenge hno (h t hm))

/-- The number of sockets whose tasks are stalled. -/
def stalled (s : Intake) : Nat := s.tasks.countP fun t => decide t.Stalled

/-- Every socket whose task waits for anything but a lock of the registry is covered. -/
structure SocketsCovered (limits : VisitorLimits) (s : Intake) : Prop where
  covered : ∀ t ∈ s.tasks, t.Stalled → t.Covered
  /-- The permits the tasks have are those the semaphores have handed out. -/
  visitors : s.admission.pendingVisitors.stock + tally IntakeTask.visitors s.tasks =
    limits.maxPendingVisitors
  opens : s.admission.pendingStreamOpens.stock + tally IntakeTask.opens s.tasks =
    limits.maxPendingStreamOpens
  streams : s.admission.activeRoutedStreams.stock + tally IntakeTask.streams s.tasks =
    limits.maxActiveRoutedStreams
  bounded : s.stalled ≤
    limits.maxPendingVisitors + limits.maxPendingStreamOpens + limits.maxActiveRoutedStreams
  /-- Limits that were fitted into the descriptors keep the sockets within them. -/
  fits : ∀ (configured : VisitorLimits) (nofile : Nat), limits = configured.fitted (some nofile) →
    s.stalled ≤ nofile - FdCapacity.fdReserve

theorem Accounted.stalled_le (h : s.Accounted limits)
    (hc : ∀ t ∈ s.tasks, t.Stalled → t.Covered) :
    s.stalled ≤
      limits.maxPendingVisitors + limits.maxPendingStreamOpens + limits.maxActiveRoutedStreams := by
  have hco : s.stalled ≤
      tally (fun t => t.visitors + (t.opens + t.streams)) s.tasks :=
    countP_le_tally fun t ht hs => (hc t ht (of_decide_eq_true hs)).pos
  have hsu := tally_add IntakeTask.visitors (fun t => t.opens + t.streams) s.tasks
  have hs' := tally_add IntakeTask.opens IntakeTask.streams s.tasks
  obtain ⟨-, hv, ho, hr⟩ := h
  omega

theorem sum_fitted_le (configured : VisitorLimits) (nofile : Nat) :
    (configured.fitted (some nofile)).maxPendingVisitors +
        (configured.fitted (some nofile)).maxPendingStreamOpens +
        (configured.fitted (some nofile)).maxActiveRoutedStreams ≤
      nofile - FdCapacity.fdReserve := by
  have hs := FdCapacity.sum_serverCapacity_le configured.capacities nofile FdCapacity.fdReserve
  rwa [Fin.sum_univ_three] at hs

theorem sockets_covered {intake : VisitorIntake}
    (hrun : system.Steps (fun s a => s.beginsChallenge a = false) (start intake limits) s) :
    s.SocketsCovered limits := by
  have hal : s.Accounted limits ∧ s.Unchallenged := by
    refine hrun.invariant (I := fun u => u.Accounted limits ∧ u.Unchallenged) ?_
      ⟨accounted_start intake limits, fun t ht => by cases ht⟩
    intro u a v ⟨hu, hno⟩ hok hst
    exact ⟨hu.step hst, hno.step hu hok hst⟩
  obtain ⟨ha, hno⟩ := hal
  have hc : ∀ t ∈ s.tasks, t.Stalled → t.Covered := fun t ht hs =>
    ((ha.sound t ht).covered hs).resolve_right (hno t ht)
  have hb := ha.stalled_le hc
  refine ⟨hc, ha.visitors, ha.opens, ha.streams, hb, ?_⟩
  rintro configured nofile rfl
  exact hb.trans (sum_fitted_le configured nofile)

/-- A hello for a hostname, offering some protocols. -/
private def helloFor (hostname : String) (alpnProtocols : List (List UInt8)) : ParsedClientHello :=
  ⟨⟨hostname⟩, alpnProtocols, []⟩

private def fromHost (n : Nat) : VisitorTcpAddresses :=
  ⟨⟨.v4 (BitVec.ofNat 32 n), 50000⟩, ⟨.v4 1, 443⟩⟩

/-- The events of a Visitor up to `handle_parsed`. -/
private def intakeOf (i : Nat) (hello : ParsedClientHello) : List Action :=
  [.accept, .on i (.start (some (fromHost i))), .on i .proceed, .on i .proceed,
    .on i (.helloRead (some hello)), .on i .proceed, .on i (.handle true false)]

theorem sockets_covered_while_proxying :
    ∃ s, system.Steps (fun s a => s.beginsChallenge a = false)
        (start ⟨⟨"server.example"⟩, true, false, [], false⟩ ⟨1, 1, 1, 1⟩) s ∧
      s.stalled = 2 ∧ s.SocketsCovered ⟨1, 1, 1, 1⟩ :=
  Lts.exists_steps_and
    (intakeOf 0 (helloFor "a.example" [acmeTlsAlpn]) ++
      [.on 0 (.locked true), .on 0 (.locked true), .on 0 .proceed, .on 0 (.streamOpened true),
        .on 0 .proceed, .on 0 .proceed, .on 0 (.registered true), .accept, .accept])
    (by decide) fun _ hs => sockets_covered hs

/-- Four Visitors offer `acme-tls/1` for the Server hostname and then say nothing more.
The limits allow three sockets. -/
theorem challenges_uncovered :
    ∃ s, system.Reaches (start ⟨⟨"server.example"⟩, true, false, [], false⟩ ⟨1, 1, 1, 1⟩) s ∧
      s.stalled = 4 ∧ ∀ t ∈ s.tasks, t.Stalled ∧ ¬ t.Covered :=
  Lts.exists_steps
    ((List.range 4).flatMap fun i => intakeOf i (helloFor "server.example" [acmeTlsAlpn]))
    (by decide)

end Intake

end Runewarp.Server
