import Runewarp.Server.RuntimeProgress

/-!
# Unrequested stops

What a runtime returns is put together from three places: the terminal error of
`serve`, the error of the certificate manager and the coordinator's reading of a
Server that returned `Ok`.  The coordinator takes an `Ok` without process shutdown
for a completed drain, so a `serve` that ends unrequested must leave an error.
Every way out of the accept loop does, except an endpoint that yields `none`.

`Accounted` says who asked for a stop that carries no error and who began process
shutdown, and `stop_reported` reads off it how each stop is reported.
-/

namespace Runewarp.ServerRuntime

/-- No Tunnel endpoint yields `none` while nobody has asked the Server to stop. -/
def EndpointsLast (s : ServerRuntime) (a : Action) : Prop :=
  a = .event (.tunnel none) → s.Requested

instance (s : ServerRuntime) (a : Action) : Decidable (s.EndpointsLast a) :=
  inferInstanceAs (Decidable (_ → _))

variable {s t : ServerRuntime} {a : Action} {err : Option IoError}

theorem handedOn_eq_ok (h : s.handedOn err = .ok ()) : err = none ∧ ∀ e, s.acme ≠ .stopped e := by
  cases ha : s.acme with
  | stopped e => simp [handedOn, acmeResult, ha] at h
  | _ => cases err <;> simp_all [handedOn, acmeResult, serveResult]

theorem handedOn_some (s : ServerRuntime) (e : IoError) :
    ∃ e', s.handedOn (some e) = .error e' := by
  cases ha : s.acme <;> simp [handedOn, acmeResult, serveResult, ha]

/-- Who is behind a stop without an error, and behind process shutdown. -/
structure Accounted (s : ServerRuntime) : Prop where
  following : s.serve = .accepting → s.localShutdown.mode ≠ none → s.Requested
  clean : s.serve.terminalError = some none → s.Requested
  begun : s.process.mode ≠ none → s.callerBegan = true ∨ (∃ e, s.acme = .stopped e) ∨
    (∃ e, s.coordinator = .awaitServer (some e)) ∨ ∃ e, s.coordinator.outcome = some (.error e)
  static : s.coordinator = .static → s.drain = false
  fast : s.coordinator = .awaitServer none → s.process.mode ≠ none
  waits : s.coordinator = .drained → s.drain = true ∧ ∀ e, s.acme ≠ .stopped e
  ok : s.coordinator.outcome = some (.ok ()) → s.callerBegan = true
  unrequested : s.leftUnrequested = true →
    (∃ e, s.serve.terminalError = some (some e)) ∨ ∃ e, s.coordinator.outcome = some (.error e)

theorem accounted_start (duration last : Nat) (withAcme managed : Bool) :
    (start duration last withAcme managed).Accounted := by
  cases managed <;> constructor <;>
    simp [start, Coordinator.outcome, OrderlyShutdown.new, Serve.terminalError]

theorem Requested.process (h : s.Requested) (hd : s.drain = false) : s.process.mode ≠ none := by
  rcases h with h | h
  · exact h
  · simp [hd] at h

/-- Once `serve` is done without an error and the coordinator fixes an `Ok`, the
caller has begun process shutdown. -/
theorem Accounted.callerBegan (h : s.Accounted) (hm : s.process.mode ≠ none)
    (hac : ∀ e, s.acme ≠ .stopped e) (ha : ∀ e, s.coordinator ≠ .awaitServer (some e))
    (ho : s.coordinator.outcome = none) : s.callerBegan = true := by
  rcases h.begun hm with hb | ⟨e, he⟩ | ⟨e, he⟩ | ⟨e, he⟩
  · exact hb
  · exact (hac e he).elim
  · exact (ha e he).elim
  · simp [ho] at he

theorem Accounted.leave (h : s.Accounted) {localShutdown : OrderlyShutdown} {m : ShutdownMode}
    (he : err = none → s.Requested) :
    ({ s with
      localShutdown := localShutdown
      serve := .leaving m err
      leftUnrequested := !decide s.Requested } : ServerRuntime).Accounted :=
  { h with
    following := by simp
    clean := by
      intro hc
      exact he (by simpa [Serve.terminalError] using hc)
    unrequested := by
      intro hu
      cases err with
      | none => simp [he rfl] at hu
      | some e => exact .inl ⟨e, rfl⟩ }

theorem Accounted.tearDown (h : s.Accounted) {next : Serve}
    (hne : next ≠ .accepting) (he : next.terminalError = s.serve.terminalError) :
    ({ s with serve := next } : ServerRuntime).Accounted :=
  { h with
    following := fun hn => (hne hn).elim
    clean := fun hc => h.clean (he ▸ hc)
    unrequested := fun hu => by
      rw [show (Serve.terminalError _ = _) from he]
      exact h.unrequested hu }

/-- The result of a `serve` that was left unrequested is an error. -/
theorem Accounted.handedOn_of_unrequested (h : s.Accounted) (hs : s.serve = .closing err)
    (ho : s.coordinator.outcome = none) (hu : s.leftUnrequested = true) :
    ∃ e, s.handedOn err = .error e := by
  rcases h.unrequested hu with ⟨e, he⟩ | ⟨e, he⟩
  · obtain rfl : err = some e := by simpa [hs, Serve.terminalError] using he
    exact handedOn_some s e
  · simp [ho] at he

theorem accounted_of_outcome {serve : Serve} {c : Coordinator}
    {r : Except IoError Unit} {session : SessionFuture} {stop : Bool} (hs : serve = .done)
    (hc : c.outcome = some r) (hok : r = .ok () → s.callerBegan = true)
    (hu : s.leftUnrequested = true → ∃ e, r = .error e) :
    ({ s with serve := serve, coordinator := c, session := session, sessionStop := stop } :
      ServerRuntime).Accounted := by
  subst hs
  refine
    { following := by simp
      clean := by simp [Serve.terminalError]
      begun := fun _ => ?_
      static := ?_
      fast := ?_
      waits := ?_
      ok := fun ho => hok (by simpa [hc] using ho)
      unrequested := fun hl => ?_ }
  · match r with
    | .ok () => exact .inl (hok rfl)
    | .error e => exact .inr (.inr (.inr ⟨e, hc⟩))
  · rintro rfl
    cases hc
  · rintro rfl
    cases hc
  · rintro rfl
    cases hc
  · obtain ⟨e, rfl⟩ := hu hl
    exact .inr ⟨e, hc⟩

theorem Accounted.move (h : s.Accounted) (hsh : s.Shape)
    (hok : s.EndpointsLast a) (hm : Move s a t) : t.Accounted := by
  cases hm with
  | begins =>
    refine
      { h with
        following := fun _ _ => .inl (by simp)
        clean := fun _ => .inl (by simp)
        begun := fun _ => ?_
        fast := fun _ => by simp
        ok := fun ho => by simp [h.ok ho] }
    by_cases hm : s.process.mode = none
    · exact .inl (by simp [hm])
    · rcases h.begun hm with hb | hb
      · exact .inl (by simp [hb])
      · exact .inr hb
  | drains hse =>
    refine
      { h with
        following := fun _ _ => .inr rfl
        clean := fun _ => .inr rfl
        static := fun hc => ?_
        waits := fun hc => ⟨rfl, (h.waits hc).2⟩ }
    -- A Server without a session has nobody to begin a drain.
    have := hsh.session.mp hse
    simp [show s.coordinator = .static from hc, Coordinator.awaitsSession] at this
  | follows _ _ hca =>
    refine { h with following := fun _ _ => ?_ }
    rcases hca with ⟨-, hm⟩ | ⟨-, hd, -⟩
    · exact .inl (by simp [hm, ServerRuntime.follows])
    · exact .inr hd
  | escalates _ _ hm => exact { h with following := fun _ _ => .inl (by simp [hm]) }
  | leaves hs hm => exact h.leave fun _ => h.following hs (by simp [hm])
  | fails hs hf =>
    refine h.leave fun hno => hok ?_
    cases hf with
    | endpoint => rfl
    | _ => cases hno
  | joins hs hn =>
    rcases hn with rfl | rfl <;> exact h.tearDown (by simp) (by rw [hs]; rfl)
  | closes hs => exact h.tearDown (by simp) (by rw [hs]; rfl)
  | @drained err hs hc hr hm =>
    obtain ⟨rfl, ha⟩ := handedOn_eq_ok hr
    have hre := h.clean (by rw [hs]; rfl)
    refine
      { h with
        following := by simp
        clean := by simp [Serve.terminalError]
        begun := fun hb => (hb hm).elim
        static := by simp
        fast := by simp
        waits := fun _ => ⟨hre.resolve_left (fun hb => hb hm), ha⟩
        ok := by simp [Coordinator.outcome]
        unrequested := fun hu => ?_ }
    rcases h.unrequested hu with ⟨e, he⟩ | ⟨e, he⟩
    · simp [hs, Serve.terminalError] at he
    · simp [hc, Coordinator.outcome] at he
  | stops hs hc hr =>
    have ho : s.coordinator.outcome = none := by rw [hc]; rfl
    refine accounted_of_outcome rfl rfl (fun hok => ?_) (h.handedOn_of_unrequested hs ho)
    exact h.callerBegan (hr hok) (handedOn_eq_ok hok).2 (by simp [hc]) ho
  | returns hs hc =>
    have ho : s.coordinator.outcome = none := by rcases hc with hc | hc <;> rw [hc] <;> rfl
    refine accounted_of_outcome rfl rfl (fun hok => ?_) (h.handedOn_of_unrequested hs ho)
    obtain ⟨rfl, ha⟩ := handedOn_eq_ok hok
    have hbe : s.process.mode ≠ none := by
      rcases hc with hc | hc
      · exact (h.clean (by rw [hs]; rfl)).process (h.static hc)
      · exact h.fast hc
    exact h.callerBegan hbe ha (by rcases hc with hc | hc <;> simp [hc]) ho
  | returnsOriginal hs hc => exact accounted_of_outcome rfl rfl (by simp) fun _ => ⟨_, rfl⟩
  | acmeEnds _ hs =>
    exact
      { h with
        following := fun _ _ => .inl (by simp)
        clean := fun _ => .inl (by simp)
        begun := fun _ => .inr (.inl ⟨_, rfl⟩)
        fast := fun _ => by simp
        waits := fun hc => (hs (hsh.server.mpr (by
          rw [show s.coordinator = .drained from hc]; rfl))).elim }
  | wakes hc hm =>
    have ho : s.coordinator.outcome = none := by rw [hc]; rfl
    have hdo : s.serve = .done := hsh.server.mpr (by rw [hc]; rfl)
    have hb := h.callerBegan hm (h.waits hc).2 (by simp [hc]) ho
    refine accounted_of_outcome hdo rfl (fun _ => hb) fun hu => ?_
    rcases h.unrequested hu with ⟨e, he⟩ | ⟨e, he⟩
    · simp [hdo, Serve.terminalError] at he
    · simp [ho] at he
  | endsFast _ hc hm =>
    refine
      { h with
        begun := fun hb => ?_
        static := by simp
        fast := fun _ => by simp [hm]
        waits := by simp
        ok := by simp [Coordinator.outcome]
        unrequested := fun hu => ?_ }
    · rcases h.begun hb with hb | hb | ⟨e, he⟩ | ⟨e, he⟩
      · exact .inl hb
      · exact .inr (.inl hb)
      · simp [hc] at he
      · simp [hc, Coordinator.outcome] at he
    · rcases h.unrequested hu with he | ⟨e, he⟩
      · exact .inl he
      · simp [hc, Coordinator.outcome] at he
  | endsEarly _ hc =>
    refine
      { h with
        following := fun _ _ => .inl (by simp)
        clean := fun _ => .inl (by simp)
        begun := fun _ => .inr (.inr (.inl ⟨_, rfl⟩))
        static := by simp
        fast := by simp
        waits := by simp
        ok := by simp [Coordinator.outcome]
        unrequested := fun hu => ?_ }
    rcases h.unrequested hu with he | ⟨e, he⟩
    · exact .inl he
    · simp [hc, Coordinator.outcome] at he
  | endsDrained _ hc =>
    exact accounted_of_outcome (hsh.server.mpr (by rw [hc]; rfl)) rfl (by simp)
      fun _ => ⟨_, rfl⟩
  | endsStopped _ hc =>
    have hdo : s.serve = .done := hsh.server.mpr (by rw [hc]; rfl)
    refine accounted_of_outcome hdo rfl (fun hok => h.ok (by rw [hc, hok]; rfl)) fun hu => ?_
    rcases h.unrequested hu with ⟨e, he⟩ | ⟨e, he⟩
    · simp [hdo, Serve.terminalError] at he
    · exact ⟨e, by simpa [hc, Coordinator.outcome] using he⟩
  | _ => exact { h with }

/-- A Server that was left unrequested has nothing to wait for. -/
theorem Accounted.not_waiting (h : s.Accounted) (hsh : s.Shape)
    (hu : s.leftUnrequested = true) : ¬ (s.serve = .accepting ∨ s.coordinator = .drained) := by
  have hse := hsh.server
  rcases h.unrequested hu with ⟨e, he⟩ | ⟨e, he⟩
  · rintro (hs | hc)
    · simp [hs, Serve.terminalError] at he
    · simp only [hc, Coordinator.serverReturned, iff_true] at hse
      simp [hse, Serve.terminalError] at he
  · rintro (hs | hc)
    · cases hc : s.coordinator <;>
        simp [hc, hs, Coordinator.outcome, Coordinator.serverReturned] at he hse
    · simp [hc, Coordinator.outcome] at he

theorem leftUnrequested_of_move (hm : Move s a t)
    (hs : s.serve ≠ .accepting) : t.leftUnrequested = s.leftUnrequested := by
  cases hm with
  | leaves ha | fails ha => exact (hs ha).elim
  | _ => rfl

/-- Between an unrequested end of the accept loop and the return. -/
structure Failing (s : ServerRuntime) : Prop where
  shape : s.Shape
  accounted : s.Accounted
  left : s.leftUnrequested = true

theorem Failing.rank_le (h : s.Failing) : s.rank ≤ 4 := by
  have hw := h.accounted.not_waiting h.shape h.left
  have hse : s.serve.remaining s.localShutdown.mode.isSome ≤ 3 := by
    cases hs : s.serve with
    | accepting => exact (hw (.inl hs)).elim
    | _ => simp [Serve.remaining]
  have hco : s.coordinator.remaining ≤ 1 := by
    cases hc : s.coordinator with
    | drained => exact (hw (.inr hc)).elim
    | _ => simp [Coordinator.remaining]
  exact Nat.add_le_add hse hco

theorem Failing.move (h : s.Failing) (hok : s.EndpointsLast a) (hm : Move s a t) : t.Failing := by
  have hs : s.serve ≠ .accepting := fun hs => h.accounted.not_waiting h.shape h.left (.inl hs)
  exact ⟨h.shape.move hm, h.accounted.move h.shape hok hm,
    (leftUnrequested_of_move hm hs).trans h.left⟩

theorem failing_progress : system.Progress EndpointsLast Advances Failing Returned rank := by
  refine progress (fun s a t h hok hs => h.move hok (move_of_step hs))
    (fun s h => h.shape) (fun s h hw => (h.accounted.not_waiting h.shape h.left hw).elim) ?_ ?_
  · intro s a t h hok hm hc
    have ht := h.move hok hm
    exact (ht.accounted.not_waiting ht.shape ht.left (.inr hc)).elim
  · intro s _ _ ha hn
    simp [hn, Advances] at ha

/-- How the end of a runtime is reported. -/
structure StopReported (s : ServerRuntime) : Prop where
  /-- `Ok` is returned only if the caller began process shutdown. -/
  ok_requested : s.coordinator = .returned (.ok ()) → s.callerBegan = true
  /-- The wait for process shutdown is entered only with a drain begun. -/
  waits_drained : s.coordinator = .drained → s.drain = true
  /-- After an unrequested end of the accept loop what is returned is an error. -/
  unrequested_error : s.leftUnrequested = true → ∀ r, s.coordinator = .returned r →
    ∃ e, r = .error e
  /-- After an unrequested end of the accept loop the runtime does return. -/
  unrequested_returns : s.leftUnrequested = true →
    system.Settles EndpointsLast Advances Returned 4 s

/-- With endpoints that last, every stop is reported for what it is: with or without
the certificate manager and with or without a session. -/
theorem stop_reported {duration last : Nat} {withAcme managed : Bool} {s : ServerRuntime}
    (hrun : system.Steps EndpointsLast (start duration last withAcme managed) s) :
    s.StopReported := by
  have hi : s.Shape ∧ s.Accounted := by
    refine hrun.invariant (I := fun s => s.Shape ∧ s.Accounted) ?_
      ⟨shape_start duration last withAcme managed, accounted_start duration last withAcme managed⟩
    intro s a t ⟨hs, ha⟩ hok hst
    have hm := move_of_step hst
    exact ⟨hs.move hm, ha.move hs hok hm⟩
  obtain ⟨hs, ha⟩ := hi
  refine ⟨fun hc => ha.ok (by rw [hc]; rfl), fun hc => (ha.waits hc).1, ?_, ?_⟩
  · intro hu r hc
    rcases ha.unrequested hu with ⟨e, he⟩ | ⟨e, he⟩
    · have hd := hs.server.mpr (by rw [hc]; rfl)
      simp [hd, Serve.terminalError] at he
    · exact ⟨e, by simpa [hc, Coordinator.outcome] using he⟩
  · intro hu
    have hf : s.Failing := ⟨hs, ha, hu⟩
    exact failing_progress.settles hf hf.rank_le

/-- Out of connection IDs: the stop was requested by nobody, and an error is
returned. -/
theorem stop_reported_after_exhaustion :
    ∃ s, system.Steps EndpointsLast (start 10 (2 ^ 64 - 1) true true) s ∧
      s.leftUnrequested = true ∧
      s.coordinator = .returned (.error (.otherError "Server connection IDs exhausted")) ∧
      s.StopReported := by
  have hru : ∃ s ∈ system.execWhile EndpointsLast (start 10 (2 ^ 64 - 1) true true)
      [.event (.visitor .stream), .handshakesJoined, .flushed, .sessionEnds],
      s.leftUnrequested = true ∧
      s.coordinator = .returned (.error (.otherError "Server connection IDs exhausted")) := by
    decide
  obtain ⟨s, he, hl, hr⟩ := hru
  have hs := Lts.Steps.of_execWhile he
  exact ⟨s, hs, hl, hr, stop_reported hs⟩

/-- A Tunnel endpoint yields `none` while nobody has asked for a stop.  The
coordinator takes the `Ok` for a completed drain and waits, and a later process
shutdown turns it into the result.  Without a session the `Ok` is returned at
once. -/
theorem failed_endpoint_reported_as_drain :
    (∃ s, system.Reaches (start 10 0 false true) s ∧ s.leftUnrequested = true ∧
      s.coordinator = .drained ∧ s.drain = false) ∧
    (∃ s, system.Reaches (start 10 0 false true) s ∧ s.leftUnrequested = true ∧
      s.coordinator = .returned (.ok ())) ∧
    ∃ s, system.Reaches (start 10 0 false false) s ∧ s.callerBegan = false ∧
      s.coordinator = .returned (.ok ()) :=
  ⟨Lts.exists_steps [.event (.tunnel none), .handshakesJoined, .flushed] (by decide),
    Lts.exists_steps
      [.event (.tunnel none), .handshakesJoined, .flushed, .beginShutdown .graceful,
        .shutdownSeen, .sessionEnds]
      (by decide),
    Lts.exists_steps [.event (.tunnel none), .handshakesJoined, .flushed] (by decide)⟩

end Runewarp.ServerRuntime
