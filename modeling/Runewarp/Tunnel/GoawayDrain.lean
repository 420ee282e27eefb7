import Runewarp.Tunnel.ServerAccounting

/-!
# GOAWAY and DRAIN

On shutdown the driver publishes GOAWAY, waits until nothing is in flight and then asks
the Client to drain.  A call of `open_visitor_stream` reads the GOAWAY flag after
`open_bi`, when it is on the counter already.  So once GOAWAY is published and the
counter was at zero, every call still to come to that check finds the flag set.

The counter does not have the WebTransport CONNECT that made the session: its handler
runs as long as the session does, and DRAIN is sent on that session.
-/

namespace Runewarp.Tunnel.ServerTunnel

variable {s t : ServerTunnel} {a : Action}

/-- Every open will find GOAWAY published. -/
structure Sealed (s : ServerTunnel) : Prop where
  goaway : s.shared.goaway = true
  unpassed : ∀ p ∈ s.opens, p.passed = false

theorem Sealed.move (h : s.Sealed) (hm : Move s a t) :
    t.Sealed ∧ t.streams.length = s.streams.length := by
  cases hm with
  | driver hd => exact ⟨⟨hd.goaway h.goaway, h.unpassed⟩, rfl⟩
  | request _ _ hs => exact ⟨⟨hs.goaway.trans h.goaway, h.unpassed⟩, rfl⟩
  | callOpen => exact ⟨⟨h.goaway, forall_mem_concat h.unpassed rfl⟩, rfl⟩
  | @openStep _ p _ p' _ hp _ hs =>
    refine ⟨⟨hs.goaway.trans h.goaway, forall_mem_set h.unpassed ?_⟩, rfl⟩
    by_contra hpa
    rcases hs.passes (by simpa using hpa) with hb | hn
    · rw [h.unpassed p (List.mem_of_getElem? hp)] at hb
      cases hb
    · simp [h.goaway] at hn
  | create hp => simpa using h.unpassed _ (List.mem_of_getElem? hp)
  | stream => exact ⟨⟨by simpa using h.goaway, h.unpassed⟩, List.length_set⟩
  | _ => exact ⟨⟨h.goaway, h.unpassed⟩, rfl⟩

theorem Sealed.reaches (h : s.Sealed) (hr : system.Reaches s t) :
    t.streams.length = s.streams.length := by
  have ha : t.Sealed ∧ t.streams.length = s.streams.length := by
    refine hr.invariant (I := fun u => u.Sealed ∧ u.streams.length = s.streams.length) ?_
      ⟨h, rfl⟩
    intro u a v hu _ hs
    obtain ⟨hv, hl⟩ := hu.1.move (move_of_step hs)
    exact ⟨hv, hl.trans hu.2⟩
  exact ha.2

/-- Nothing is on the counter that DRAIN waits for, and no stream will be. -/
structure Idle (s : ServerTunnel) : Prop where
  sealed : s.Sealed
  streams : ∀ l ∈ s.streams, l.resource.first = 0
  requests : ∀ r ∈ s.requests, r.phase.counted = 0

theorem passed_onRequests {p : OpenPhase} (h : p.onRequests = 0) : p.passed = false := by
  cases p <;> first | rfl | cases h

theorem Accounted.idle (h : s.Accounted) (hg : s.shared.goaway = true)
    (hz : s.shared.requestsInFlight = 0) : s.Idle := by
  have hre := h.requests
  have ho : tally OpenPhase.onRequests s.opens = 0 := by omega
  have hs : tally (·.resource.first) s.streams = 0 := by omega
  have hh : tally (·.phase.counted) s.requests = 0 := by omega
  refine ⟨⟨hg, fun p hp => ?_⟩, fun l hl => ?_, fun r hr => ?_⟩
  · exact passed_onRequests (weight_eq_zero ho hp)
  · have hn := weight_eq_zero hs hl
    exact hn
  · have hn := weight_eq_zero hh hr
    exact hn

/-- Outside the select of the driver nothing is accepted, so what is idle stays so. -/
theorem Idle.move (h : s.Idle) (ha : s.Accounted) (hph : s.driver.phase ≠ .selecting)
    (hm : Move s a t) : t.Idle := by
  have hs := (h.sealed.move hm).1
  cases hm with
  | accept hp => exact (hph hp).elim
  | request hr _ hsp =>
    refine ⟨hs, h.streams, forall_mem_set h.requests ?_⟩
    exact hsp.uncounted (h.requests _ (List.mem_of_getElem? hr))
  | create hp => simpa using h.sealed.unpassed _ (List.mem_of_getElem? hp)
  | stream hl hst =>
    have hme := List.mem_of_getElem? hl
    have hf := ((ha.sound _ hme).resource_step hst).1
    refine ⟨hs, forall_mem_set h.streams ?_, h.requests⟩
    have hn := h.streams _ hme
    omega
  | _ => exact ⟨hs, h.streams, h.requests⟩

structure Ordered (s : ServerTunnel) : Prop where
  accounted : s.Accounted
  published : s.driver.Published s.shared
  quiet : s.driver.phase = .quiet → s.Idle

theorem ordered_start : Ordered {} := by
  refine ⟨accounted_start, ?_, ?_⟩ <;> simp [Driver.Published]

theorem Ordered.move (h : s.Ordered) (hm : Move s a t) : t.Ordered := by
  refine ⟨h.accounted.move hm, ?_, ?_⟩
  · cases hm with
    | driver hd => exact hd.published h.published
    | request _ _ hsp | openStep _ _ hsp | create _ hsp =>
      simpa [Driver.Published, hsp.goaway] using h.published
    | stream => simpa [Driver.Published] using h.published
    | _ => exact h.published
  · intro hqu
    have hst : s.driver.phase = .quiet → t.Idle :=
      fun hq => (h.quiet hq).move h.accounted (by simp [hq]) hm
    cases hm with
    | driver hd =>
      obtain ⟨hs, hsh, hz⟩ := hd.quiet hqu
      rcases h.published hsh with hse | hg
      · simp [hs] at hse
      · have hi := h.accounted.idle hg hz
        exact ⟨⟨hd.goaway hg, hi.sealed.unpassed⟩, hi.streams, hi.requests⟩
    | _ => exact hst hqu

/-- The driver is about to send DRAIN. -/
def SendsDrain (s : ServerTunnel) : Prop :=
  s.driver.phase = .quiet ∧ s.shared.session.isSome = true

instance (s : ServerTunnel) : Decidable s.SendsDrain := inferInstanceAs (Decidable (_ ∧ _))

/-- What holds when DRAIN is sent, and ever after. -/
structure DrainOrdered (s : ServerTunnel) : Prop where
  goaway : s.shared.goaway = true
  dropped : s.AllDropped
  requests : ∀ r ∈ s.requests, r.phase = .finished ∨ r.phase = .accepted ∨ r.phase = .serving
  sealed : ∀ t, system.Reaches s t → t.streams.length = s.streams.length

theorem drain_ordered (hrun : system.Reaches {} s) (hdrain : s.SendsDrain) : s.DrainOrdered := by
  have h : s.Ordered :=
    hrun.invariant (I := Ordered) (fun _ _ _ h _ hs => h.move (move_of_step hs))
      ordered_start
  have hi := h.quiet hdrain.1
  refine ⟨hi.sealed.goaway, ?_, ?_, fun t hre => hi.sealed.reaches hre⟩
  · refine h.accounted.allDropped fun l hl hh => ?_
    have hn := hi.streams l hl
    rw [hh] at hn
    cases hn
  · intro r hr
    have hn := hi.requests r hr
    cases hp : r.phase <;> simp [hp] at hn ⊢

/-- A Visitor stream is open when shutdown begins, and a second call has passed its
first checks. -/
theorem drain_ordered_after_visitor :
    ∃ s, system.Reaches {} s ∧ s.SendsDrain ∧ s.streams.length = 1 ∧
      s.opens = [.returned (.ok 0), .countRequest] ∧ s.DrainOrdered := by
  have hru : ∃ s ∈ system.exec {}
      [.accept, .request 0 (.resolve (some .session)), .request 0 (.accept true),
        .request 0 .proceed, .callOpen, .openStep 0 .proceed, .openStep 0 .proceed,
        .openStep 0 .proceed, .openStep 0 .proceed, .openStep 0 .proceed, .openStep 0 .proceed,
        .openStep 0 (.openBi (.ok ())), .openStep 0 .proceed,
        .callOpen, .openStep 1 .proceed, .openStep 1 .proceed, .openStep 1 .proceed,
        .shutdown, .driver .beginShutdown, .driver .publishGoaway, .driver .goawaySent,
        .openStep 0 .proceed, .openStep 0 .proceed, .openStep 0 .proceed, .openStep 0 .proceed,
        .stream 0 (.droppingHalf .write), .stream 0 (.dropTransport .write),
        .stream 0 (.dropLease .write), .stream 0 (.droppingHalf .read),
        .stream 0 (.beforeDrop .read), .stream 0 (.dropTransport .read),
        .stream 0 (.dropLease .read), .stream 0 .releaseFirst, .driver .quiesce],
      s.SendsDrain ∧ s.streams.length = 1 ∧ s.opens = [.returned (.ok 0), .countRequest] := by
    decide
  obtain ⟨s, he, hd, hs, ho⟩ := hru
  have hr := Lts.Reaches.of_exec he
  exact ⟨s, hr, hd, hs, ho, drain_ordered hr hd⟩

/-- DRAIN is sent while the CONNECT that made the session, accepted before GOAWAY, is
still being handled. -/
theorem drain_sent_with_session_request :
    ∃ s, system.Reaches {} s ∧ s.SendsDrain ∧ ⟨true, .serving⟩ ∈ s.requests :=
  Lts.exists_steps
    [.accept, .request 0 (.resolve (some .session)), .request 0 (.accept true),
      .request 0 .proceed, .shutdown, .driver .beginShutdown, .driver .publishGoaway,
      .driver .goawaySent, .driver .quiesce]
    (by decide)

end Runewarp.Tunnel.ServerTunnel
