import Runewarp.Server.RuntimeProgress

/-!
# Requested shutdown of a Managed Server

Process shutdown reaches a Managed Server twice: through `follow` and the
coordinator, and through the stop future of its session, which is ready on Fast.
After a completed drain the coordinator waits for either, so Fast makes both
branches of its select ready, and the branch of the session returns an error.

`requested_shutdown_honoured` says that nothing goes wrong while nothing fails and
Fast is not begun during that wait.
-/

namespace Runewarp.ServerRuntime

/-- Nothing fails, and the session ends only because its stop future is ready: the
coordinator has sent the stop, or process shutdown is Fast. -/
def Untroubled (s : ServerRuntime) : Action → Prop
  | .raiseFatal | .acmeEnds _ | .event .fatal | .event (.tunnel none) => False
  | .event event => ∀ r ∈ s.admission event, r.isOk = true
  | .sessionEnds => s.sessionStop = true ∨ s.process.mode = some .fast
  | _ => True

instance (s : ServerRuntime) (a : Action) : Decidable (s.Untroubled a) := by
  unfold Untroubled
  split <;> infer_instance

/-- Fast is not begun during the wait after a drain. -/
def NotFastInWait (s : ServerRuntime) (a : Action) : Prop :=
  a = .beginShutdown .fast → s.coordinator ≠ .drained

instance (s : ServerRuntime) (a : Action) : Decidable (s.NotFastInWait a) :=
  inferInstanceAs (Decidable (_ → _))

/-- The steps of an undisturbed run. -/
def Undisturbed (s : ServerRuntime) (a : Action) : Prop := s.Untroubled a ∧ s.NotFastInWait a

instance (s : ServerRuntime) (a : Action) : Decidable (s.Undisturbed a) :=
  inferInstanceAs (Decidable (_ ∧ _))

structure Orderly (s : ServerRuntime) : Prop where
  managed : s.session ≠ .absent ∧ s.coordinator ≠ .static
  clean : ∀ e, s.serve.terminalError ≠ some (some e)
  acme : ∀ e, s.acme ≠ .stopped e
  fatal : s.fatal = false
  awaits : ∀ o, s.coordinator = .awaitServer o → o = none ∧ s.process.mode = some .fast
  outcome : ∀ r, s.coordinator.outcome = some r → r = .ok () ∧ s.process.mode ≠ none
  stopping : ∀ r, s.coordinator = .stopping r → s.sessionStop = true
  stopped : s.sessionStop = true → s.serve = .done ∧ s.process.mode ≠ none
  finished : s.session = .finished →
    s.process.mode = some .fast ∨ s.serve = .done ∧ s.process.mode ≠ none
  /-- In the wait after a drain the stop future of the session is not ready. -/
  waits : s.coordinator = .drained → s.sessionStop = false ∧ s.process.mode ≠ some .fast

variable {s t : ServerRuntime} {a : Action}

theorem orderly_start (duration last : Nat) (withAcme : Bool) :
    (start duration last withAcme true).Orderly := by
  cases withAcme <;> constructor <;> simp [start, Coordinator.outcome, Serve.terminalError]

theorem handedOn_of_clean {err : Option IoError} (h : s.Orderly)
    (hs : s.serve = .closing err) : s.handedOn err = .ok () := by
  have he : err = none := by
    cases err with
    | none => rfl
    | some e => exact (h.clean e (by rw [hs]; rfl)).elim
  subst he
  cases ha : s.acme with
  | stopped e => exact (h.acme e ha).elim
  | _ => simp [handedOn, acmeResult, ha, serveResult]

theorem not_untroubled_of_error {e : NextServerEvent} {error : IoError}
    (he : s.admission e = some (.error error)) : ¬ s.Untroubled (.event e) := by
  match e with
  | .visitor _ | .tunnel (some ()) =>
    intro h
    cases h _ he
  | .fatal | .shutdown | .tunnel none => cases he

theorem Orderly.tearDown (h : s.Orderly) {localShutdown : OrderlyShutdown}
    {next : Serve} {left : Bool} (hs : s.serve ≠ .done)
    (hc : ∀ e, next.terminalError ≠ some (some e)) :
    ({ s with localShutdown := localShutdown, serve := next, leftUnrequested := left } :
      ServerRuntime).Orderly :=
  { h with
    clean := hc
    stopped := fun hst => (hs (h.stopped hst).1).elim
    finished := fun hf => .inl ((h.finished hf).resolve_right fun hd => hs hd.1) }

theorem Orderly.settle (h : s.Orderly) {serve : Serve} {c : Coordinator}
    {r : Except IoError Unit} {session : SessionFuture} {stop : Bool} (hs : serve = .done)
    (hm : session ≠ .absent) (hc : c.outcome = some r) (hr : r = .ok ())
    (hb : s.process.mode ≠ none) (hst : ∀ r, c = .stopping r → stop = true)
    (hf : session = .finished →
      s.process.mode = some .fast ∨ serve = .done ∧ s.process.mode ≠ none) :
    ({ s with serve := serve, coordinator := c, session := session, sessionStop := stop } :
      ServerRuntime).Orderly := by
  subst hs hr
  refine
    { managed := ⟨hm, ?_⟩
      clean := by simp [Serve.terminalError]
      acme := h.acme
      fatal := h.fatal
      awaits := ?_
      outcome := ?_
      stopping := hst
      stopped := fun _ => ⟨rfl, hb⟩
      finished := hf
      waits := ?_ }
  · rintro rfl
    cases hc
  · rintro o rfl
    cases hc
  · intro r hr
    obtain rfl : Except.ok () = r := by simpa [hc] using hr
    exact ⟨rfl, hb⟩
  · rintro rfl
    cases hc

theorem Orderly.move (h : s.Orderly) (hsh : s.Shape)
    (hok : s.Undisturbed a) (hm : Move s a t) : t.Orderly := by
  cases hm with
  | raises => exact hok.1.elim
  | acmeEnds => exact hok.1.elim
  | @begins m =>
    exact
      { h with
        awaits := fun o ho => ⟨(h.awaits o ho).1,
          OrderlyShutdown.mode_enter_of_fast m (h.awaits o ho).2⟩
        outcome := fun r hr => ⟨(h.outcome r hr).1, by simp⟩
        stopped := fun hst => ⟨(h.stopped hst).1, by simp⟩
        finished := fun hf => by
          rcases h.finished hf with hfa | ⟨hd, -⟩
          · exact .inl (OrderlyShutdown.mode_enter_of_fast m hfa)
          · exact .inr ⟨hd, by simp⟩
        waits := fun hc => by
          obtain ⟨hs, hn⟩ := h.waits hc
          refine ⟨hs, fun hf => ?_⟩
          obtain rfl := (OrderlyShutdown.of_mode_enter hf).resolve_right hn
          exact hok.2 rfl hc }
  | leaves hs => exact h.tearDown (by simp [hs]) (by simp [Serve.terminalError])
  | fails hs hfi =>
    cases hfi with
    | admission he => exact (not_untroubled_of_error he hok.1).elim
    | _ => exact hok.1.elim
  | joins hs hn =>
    have hcl := h.clean
    simp only [hs] at hcl
    rcases hn with rfl | rfl <;> exact h.tearDown (by simp [hs]) hcl
  | closes hs =>
    have hcl := h.clean
    simp only [hs] at hcl
    exact h.tearDown (by simp [hs]) hcl
  | drained hs hc _ hmo =>
    have hse : s.session = .running := hsh.session.mpr (by rw [hc]; rfl)
    have hst : s.sessionStop = false := by
      by_contra hst
      have hd := (h.stopped (by simpa using hst)).1
      rw [hs] at hd
      cases hd
    exact
      { h with
        managed := ⟨h.managed.1, by simp⟩
        clean := by simp [Serve.terminalError]
        awaits := by simp
        outcome := by simp [Coordinator.outcome]
        stopping := by simp
        stopped := fun hst => ⟨rfl, (h.stopped hst).2⟩
        finished := by simp [hse]
        waits := fun _ => ⟨hst, by simp [hmo]⟩ }
  | stops hs hc hr =>
    have hse : s.session = .running := hsh.session.mpr (by rw [hc]; rfl)
    have hou := handedOn_of_clean h hs
    exact h.settle rfl h.managed.1 rfl hou (hr hou) (fun _ _ => rfl) (by simp [hse])
  | returns hs hc =>
    rcases hc with hc | hc
    · exact (h.managed.2 hc).elim
    · have hfa := (h.awaits _ hc).2
      exact h.settle rfl h.managed.1 rfl (handedOn_of_clean h hs) (by simp [hfa]) (by simp)
        fun _ => .inl hfa
  | returnsOriginal hs hc => cases (h.awaits _ hc).1
  | wakes hc hm =>
    have hse : s.session = .running := hsh.session.mpr (by rw [hc]; rfl)
    have hd : s.serve = .done := hsh.server.mpr (by rw [hc]; rfl)
    exact h.settle hd h.managed.1 rfl rfl hm (fun _ _ => rfl) (by simp [hse])
  | endsFast hse hc hfa =>
    exact
      { h with
        managed := ⟨by simp, by simp⟩
        awaits := fun o ho => ⟨by simpa using ho.symm, hfa⟩
        outcome := by simp [Coordinator.outcome]
        stopping := by simp
        finished := fun _ => .inl hfa
        waits := by simp }
  | endsEarly _ hc hsl =>
    -- The stop is sent when the Server has returned, and then nobody selects.
    rcases hok.1 with hst | hfa
    · have hd := hsh.server.mp (h.stopped hst).1
      simp [hc, Coordinator.serverReturned] at hd
    · exact (hsl hfa).elim
  | endsDrained _ hc =>
    obtain ⟨hs, hn⟩ := h.waits hc
    rcases hok.1 with hst | hfa
    · rw [hs] at hst
      cases hst
    · exact (hn hfa).elim
  | endsStopped _ hc =>
    obtain ⟨hd, hb⟩ := h.stopped (h.stopping _ hc)
    have hr := (h.outcome _ (by rw [hc]; rfl)).1
    exact h.settle hd (by simp) rfl hr hb (by simp) fun _ => .inr ⟨hd, hb⟩
  | _ => exact { h with }

/-- Process shutdown has been begun, and nothing disturbs it. -/
structure ShuttingDown (s : ServerRuntime) : Prop where
  shape : s.Shape
  orderly : s.Orderly
  begun : s.process.mode ≠ none

theorem mode_ne_none_of_move (hm : Move s a t)
    (h : s.process.mode ≠ none) : t.process.mode ≠ none := by
  cases hm with
  | begins => simp
  | acmeEnds | endsEarly => simp
  | _ => exact h

theorem drained_of_move (hm : Move s a t)
    (h : s.process.mode ≠ none) (hd : t.coordinator = .drained) : s.coordinator = .drained := by
  cases hm with
  | drained _ _ _ hn => exact (h hn).elim
  | stops | returns | returnsOriginal | wakes | endsFast | endsEarly | endsDrained
  | endsStopped => cases hd
  | _ => exact hd

theorem ShuttingDown.nextStep_undisturbed (h : s.ShuttingDown)
    (ho : ¬ s.Returned) : s.Undisturbed s.nextStep := by
  unfold nextStep
  match hs : s.serve with
  | .accepting =>
    rw [h.orderly.fatal]
    cases s.localShutdown.mode with
    | none => exact ⟨trivial, by simp [NotFastInWait]⟩
    | some m => exact ⟨fun r hr => (by cases hr), by simp [NotFastInWait]⟩
  | .leaving _ _ | .graceful _ | .closing _ => exact ⟨trivial, by simp [NotFastInWait]⟩
  | .done =>
    have hc := h.shape.server.mp hs
    match hco : s.coordinator with
    | .drained => exact ⟨trivial, by simp [NotFastInWait]⟩
    | .stopping r => exact ⟨.inl (h.orderly.stopping r hco), by simp [NotFastInWait]⟩
    | .returned r => exact (ho ⟨r, hco⟩).elim
    | .static | .selecting | .awaitServer _ => cases hco ▸ hc

theorem shuttingDown_progress :
    system.Progress Undisturbed Advances ShuttingDown Returned rank := by
  refine progress ?_ (fun s h => h.shape) (fun s h _ => h.begun)
    (fun s a t h _ hm => drained_of_move hm h.begun)
    fun s h ho _ => h.nextStep_undisturbed ho
  intro s a t h hok hs
  have hm := move_of_step hs
  exact ⟨h.shape.move hm, h.orderly.move h.shape hok hm, mode_ne_none_of_move hm h.begun⟩

theorem rank_le_seven (s : ServerRuntime) : s.rank ≤ 7 := by
  have hs : s.serve.remaining s.localShutdown.mode.isSome ≤ 5 := by
    cases s.serve with
    | accepting => simp only [Serve.remaining]; split <;> omega
    | _ => simp [Serve.remaining]
  have hc : s.coordinator.remaining ≤ 2 := by
    cases s.coordinator <;> simp [Coordinator.remaining]
  exact Nat.add_le_add hs hc

/-- How a Managed Server answers process shutdown. -/
structure ShutdownHonoured (s : ServerRuntime) : Prop where
  /-- What is returned is `Ok`, with process shutdown begun and with both futures
  completed. -/
  returned_ok : ∀ r, s.coordinator = .returned r →
    r = .ok () ∧ s.process.mode ≠ none ∧ s.serve = .done ∧ s.session = .finished
  /-- The session has neither been told to stop nor ended before Fast, or before the
  Server has returned and process shutdown has begun. -/
  session_kept : s.sessionStop = true ∨ s.session = .finished →
    s.process.mode = some .fast ∨ s.serve = .done ∧ s.process.mode ≠ none
  /-- With process shutdown begun the runtime does return. -/
  returns : s.process.mode ≠ none → system.Settles Undisturbed Advances Returned 7 s

/-- In an undisturbed run a requested shutdown of a Managed Server ends `Ok`, in
whatever order drain, Graceful and Fast come. -/
theorem requested_shutdown_honoured {duration last : Nat} {withAcme : Bool} {s : ServerRuntime}
    (hrun : system.Steps Undisturbed (start duration last withAcme true) s) :
    s.ShutdownHonoured := by
  have hi : s.Shape ∧ s.Orderly := by
    refine hrun.invariant (I := fun s => s.Shape ∧ s.Orderly) ?_
      ⟨shape_start duration last withAcme true, orderly_start duration last withAcme⟩
    intro s a t ⟨hs, ho⟩ hok hst
    have hm := move_of_step hst
    exact ⟨hs.move hm, ho.move hs hok hm⟩
  obtain ⟨hs, ho⟩ := hi
  refine ⟨?_, ?_, fun hb =>
    shuttingDown_progress.settles ⟨hs, ho, hb⟩ (rank_le_seven s)⟩
  · intro r hc
    obtain ⟨hr, hb⟩ := ho.outcome r (by rw [hc]; rfl)
    have hd := hs.server.mpr (by rw [hc]; rfl)
    have hn : s.session ≠ .running := by
      intro hse
      have := hs.session.mp hse
      simp [hc, Coordinator.awaitsSession] at this
    refine ⟨hr, hb, hd, ?_⟩
    cases hse : s.session with
    | absent => exact (ho.managed.1 hse).elim
    | running => exact (hn hse).elim
    | finished => rfl
  · rintro (hso | hf)
    · exact .inr (ho.stopped hso)
    · exact ho.finished hf

/-- A drain, Graceful while the Server still drains, and Fast before it is through. -/
theorem shutdown_honoured_during_drain :
    ∃ s, system.Steps Undisturbed (start 10 0 true true) s ∧
      s.coordinator = .returned (.ok ()) ∧ s.ShutdownHonoured :=
  Lts.exists_steps_and
    [.beginDrain, .followDrain, .event .shutdown, .handshakesJoined, .beginShutdown .graceful,
      .beginShutdown .fast, .followFast, .gracefulFast, .flushed, .sessionEnds]
    (by decide) fun _ hs => requested_shutdown_honoured hs

/-- Fast after a completed drain makes both branches of the wait ready: the start of
process shutdown and the end of the session.  The second one returns an error. -/
theorem fast_after_drain_returns_error :
    ∃ s, system.Steps Untroubled (start 10 0 false true) s ∧ s.callerBegan = true ∧
      s.coordinator = .returned (.error sessionStopped) :=
  Lts.exists_steps
    [.beginDrain, .followDrain, .event .shutdown, .handshakesJoined, .gracefulOver, .flushed,
      .beginShutdown .fast, .sessionEnds]
    (by decide)

end Runewarp.ServerRuntime
