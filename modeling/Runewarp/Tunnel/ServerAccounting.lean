import Runewarp.Tunnel.ServerTunnel

/-!
# What is in flight on a Tunnel connection

The two counters of `Shared` say what is in flight: `requests_in_flight` counts
requests, pending opens and streams, `visitor_work` the last two only.  A call of
`open_visitor_stream` is on them from the point where it makes its `VisitorWork`, and
hands its share over to the stream it creates.

For each of the components there is one lemma on what a step of it can do, and
`Accounted` says that the counters are right.
-/

namespace Runewarp.Tunnel

/-! ## Opens -/

namespace OpenPhase

/-- What a call has on `requests_in_flight`. -/
@[simp] def onRequests : OpenPhase → Nat
  | .countVisitor | .waitSession | .opening | .checkGoaway | .borrow | .checkWithdrawn
  | .committing | .reset _ | .stopSending _ | .dropRequest _ => 1
  | .readWithdrawn | .readGoaway | .readClosed | .countRequest | .committed _ | .dropVisitor _
  | .returned _ | .cancelled => 0

/-- What a call has on `visitor_work`. -/
@[simp] def onVisitors : OpenPhase → Nat
  | .waitSession | .opening | .checkGoaway | .borrow | .checkWithdrawn | .committing
  | .reset _ | .stopSending _ | .dropRequest _ | .dropVisitor _ => 1
  | .readWithdrawn | .readGoaway | .readClosed | .countRequest | .countVisitor | .committed _
  | .returned _ | .cancelled => 0

/-- The call has found GOAWAY not published and goes on to create a stream. -/
@[simp] def passed : OpenPhase → Bool
  | .borrow | .checkWithdrawn | .committing => true
  | _ => false

/-- The stream a step creates takes the share of the call over. -/
@[simp] def handsOver (p : OpenPhase) : Nat := if p = .committing then 1 else 0

/-- What a step of a call can do. -/
structure StepSpec (sh sh' : Shared) (p p' : OpenPhase) : Prop where
  requests : p.onRequests ≤ sh.requestsInFlight →
    sh'.requestsInFlight + p.onRequests = sh.requestsInFlight + p'.onRequests + p.handsOver
  visitors : p.onVisitors ≤ sh.visitorWork →
    sh'.visitorWork + p.onVisitors = sh.visitorWork + p'.onVisitors + p.handsOver
  goaway : sh'.goaway = sh.goaway
  withdrawn : sh'.withdrawn = sh.withdrawn
  watches : sh'.withdrawalWaiters = sh.withdrawalWaiters ∧ sh'.confirmed = sh.confirmed
  passes : p'.passed = true → p.passed = true ∨ sh.goaway = false
  commits : p' = .committing → sh.withdrawn = false ∧ p.holdsLock = true

end OpenPhase

namespace OpenPhase

theorem stepSpec_dropRequest {sh : Shared} {p : OpenPhase} {failure : Option OpenFailure}
    (hr : p.onRequests = 1) (hv : p.onVisitors = 1) (hp : p ≠ .committing) :
    StepSpec sh sh p (.dropRequest failure) := by
  have hh : p.handsOver = 0 := if_neg hp
  exact ⟨fun _ => by rw [hr, hh]; rfl, fun _ => by rw [hv, hh]; rfl, rfl, rfl, ⟨rfl, rfl⟩,
    by simp, by simp⟩

theorem step_spec {sh sh' : Shared} {n : Nat} {p p' : OpenPhase} {e : OpenEvent}
    (h : p.step sh n e = some (p', sh')) : StepSpec sh sh' p p' := by
  unfold step at h
  split at h
  -- `accepts_visitors`
  iterate 3
    next =>
      cases h
      split <;> constructor <;> simp_all [refused]
  -- The counts are made.
  iterate 2
    next =>
      cases h
      constructor <;> simp [Shared.startRequest, Shared.startVisitor]
  next =>
    obtain ⟨-, rfl, rfl⟩ := by simpa using h
    constructor <;> simp
  next =>
    cases h
    constructor <;> simp
  next =>
    cases h
    exact stepSpec_dropRequest rfl rfl (by simp)
  iterate 2
    next =>
      obtain ⟨failure, -, heq⟩ := Option.map_eq_some_iff.mp h
      cases heq
      exact stepSpec_dropRequest rfl rfl (by simp)
  -- The checks after `open_bi`.
  next =>
    cases h
    split <;> constructor <;> simp_all
  next =>
    cases h
    constructor <;> simp
  next =>
    cases h
    split <;> constructor <;> simp_all [holdsLock]
  -- The stream is created and returned, or it is reset and stopped.
  iterate 4
    next =>
      cases h
      constructor <;> simp
  -- The counts are dropped.
  iterate 3
    next =>
      cases h
      constructor <;>
        first | exact Nat.sub_add_cancel | simp [Shared.dropRequest, Shared.dropVisitor]
  next => cases h

end OpenPhase

/-! ## Requests -/

namespace RequestPhase

/-- What a request has on `requests_in_flight`. -/
@[simp] def counted : RequestPhase → Nat
  | .resolving | .handling _ | .committing | .quiescing | .answering | .answered _ | .leaving
  | .ending => 1
  | .accepted | .serving | .finished => 0

/-- What a request has on `withdrawal_waiters`. -/
@[simp] def waiting : RequestPhase → Nat
  | .committing | .quiescing | .answering | .answered _ | .leaving => 1
  | .resolving | .handling _ | .accepted | .serving | .ending | .finished => 0

/-- What a step of a request can do. -/
structure StepSpec (sh sh' : Shared) (p p' : RequestPhase) : Prop where
  requests : p.counted ≤ sh.requestsInFlight →
    sh'.requestsInFlight + p.counted = sh.requestsInFlight + p'.counted
  uncounted : p.counted = 0 → p'.counted = 0
  visitors : sh'.visitorWork = sh.visitorWork
  goaway : sh'.goaway = sh.goaway
  withdrawn : sh'.withdrawn = true ↔ sh.withdrawn = true ∨ p = .committing
  quiesces : p' = .quiescing → p = .committing
  answers : p' = .answering → p = .quiescing ∧ sh.visitorWork = 0
  waiters : p.waiting ≤ sh.withdrawalWaiters.value →
    sh'.withdrawalWaiters.value + p.waiting = sh.withdrawalWaiters.value + p'.waiting
  version : sh'.withdrawalWaiters = sh.withdrawalWaiters ∨
    sh.withdrawalWaiters.version < sh'.withdrawalWaiters.version
  confirmed : sh'.confirmed = sh.confirmed ∨ p = .answered true ∧
    sh'.confirmed.value = true ∧ sh.confirmed.version < sh'.confirmed.version

theorem step_spec {sh sh' : Shared} {i : Nat} {admitted : Bool} {p p' : RequestPhase}
    {e : RequestEvent} (h : p.step sh i admitted e = some (p', sh')) : StepSpec sh sh' p p' := by
  unfold step at h
  split at h
  next =>
    cases h
    split <;> constructor <;> simp
  next =>
    cases h
    constructor <;> simp
  next =>
    cases h
    split <;> constructor <;>
      first | exact Nat.sub_add_cancel | simp [Shared.dropRequest]
  iterate 4
    next =>
      cases h
      constructor <;> simp [Shared.startWaiter]
  next =>
    obtain ⟨hw, rfl, rfl⟩ := by simpa using h
    constructor <;> simp [hw]
  next =>
    cases h
    constructor <;> simp
  next =>
    cases h
    unfold Shared.confirm
    split <;> constructor <;> simp
  next =>
    cases h
    constructor <;> simp
  next =>
    cases h
    constructor <;> first | exact Nat.sub_add_cancel | simp [Shared.dropWaiter]
  next =>
    cases h
    constructor <;> first | exact Nat.sub_add_cancel | simp [Shared.dropRequest]
  iterate 8
    next =>
      cases h
      constructor <;> simp
  next => cases h

end RequestPhase

/-! ## The driver -/

/-- What a step of the timer can do. -/
inductive Driver.CloseMove (d : Driver) (sh : Shared) : Driver → Prop where
  | withdrawn : d.close = .awaitWithdrawal → sh.withdrawn = true →
      CloseMove d sh { d with close := .awaitQuiescence }
  | quiescent : d.close = .awaitQuiescence → sh.visitorWork = 0 →
      CloseMove d sh { d with
        close := .readConfirmed
        confirmedSeen := sh.confirmed.version
        waitersSeen := sh.withdrawalWaiters.version }
  | confirmed : d.close = .readConfirmed → sh.confirmed.value = true →
      CloseMove d sh { d with close := .sleeping, confirmedSeen := sh.confirmed.version }
  | unconfirmed : d.close = .readConfirmed → sh.confirmed.value = false →
      CloseMove d sh { d with close := .readWaiters, confirmedSeen := sh.confirmed.version }
  | alone : d.close = .readWaiters → sh.withdrawalWaiters.value = 0 →
      CloseMove d sh { d with close := .sleeping, waitersSeen := sh.withdrawalWaiters.version }
  | waits : d.close = .readWaiters → sh.withdrawalWaiters.value ≠ 0 →
      CloseMove d sh { d with close := .awaitChange, waitersSeen := sh.withdrawalWaiters.version }
  | wakes : d.close = .awaitChange → CloseMove d sh { d with close := .readConfirmed }
  | elapses : d.close = .sleeping → CloseMove d sh { d with close := .elapsed }

theorem Driver.closeMove_of_closeStep {d d' : Driver} {sh : Shared}
    (h : d.closeStep sh = some d') : CloseMove d sh d' := by
  unfold closeStep at h
  split at h
  next hc =>
    obtain ⟨hw, ⟨⟩⟩ := Option.ite_some_none_eq_some.mp h
    exact .withdrawn hc hw
  next hc =>
    obtain ⟨hv, ⟨⟩⟩ := Option.ite_some_none_eq_some.mp h
    exact .quiescent hc hv
  next hc =>
    cases h
    cases hv : sh.confirmed.value with
    | true => exact .confirmed hc hv
    | false => exact .unconfirmed hc hv
  next hc =>
    cases h
    split
    next hv => exact .alone hc hv
    next hv => exact .waits hc hv
  next hc =>
    obtain ⟨-, ⟨⟩⟩ := Option.ite_some_none_eq_some.mp h
    exact .wakes hc
  next hc =>
    cases h
    exact .elapses hc
  next => cases h

namespace Driver

/-- GOAWAY is published before the driver goes on with a shutdown. -/
def Published (d : Driver) (sh : Shared) : Prop :=
  d.shuttingDown = true → d.phase = .sealing ∨ sh.goaway = true

/-- What a step of the driver can do. -/
structure StepSpec (sh sh' : Shared) (d d' : Driver) : Prop where
  requests : sh'.requestsInFlight = sh.requestsInFlight
  visitors : sh'.visitorWork = sh.visitorWork
  withdrawn : sh'.withdrawn = sh.withdrawn
  goaway : sh.goaway = true → sh'.goaway = true
  published : d.Published sh → d'.Published sh'
  quiet : d'.phase = .quiet →
    d.phase = .selecting ∧ d.shuttingDown = true ∧ sh.requestsInFlight = 0
  watches : sh'.withdrawalWaiters = sh.withdrawalWaiters ∧ sh'.confirmed = sh.confirmed
  timer : CloseMove d sh d' ∧ sh' = sh ∨
    d'.close = d.close ∧ d'.confirmedSeen = d.confirmedSeen ∧ d'.waitersSeen = d.waitersSeen

theorem closeStep_eq {d d' : Driver} {sh : Shared} (h : d.closeStep sh = some d') :
    d'.phase = d.phase ∧ d'.shuttingDown = d.shuttingDown := by
  cases closeMove_of_closeStep h <;> exact ⟨rfl, rfl⟩

theorem step_spec {sh sh' : Shared} {d d' : Driver} {requested : Bool} {e : DriverEvent}
    (h : d.step sh requested e = some (d', sh')) : StepSpec sh sh' d d' := by
  unfold step at h
  split at h
  case h_1 | h_2 =>
    obtain ⟨-, rfl, rfl⟩ := by simpa using h
    constructor <;> simp [Published]
  case h_3 | h_8 =>
    obtain ⟨hp, rfl, rfl⟩ := by simpa using h
    constructor <;> simp [Published, hp]
  case h_4 =>
    obtain ⟨⟨hp, hs, -, hq⟩, rfl, rfl⟩ := by simpa using h
    constructor <;> simp [Published, hp, hs, hq]
  case h_5 | h_6 =>
    obtain ⟨hp, h⟩ := Option.ite_none_right_eq_some.mp h
    split at h <;> cases h <;> constructor <;> simp [Published, hp]
  case h_7 =>
    obtain ⟨hp, h⟩ := Option.ite_none_right_eq_some.mp h
    obtain ⟨d'', hc, heq⟩ := Option.map_eq_some_iff.mp h
    cases heq
    obtain ⟨hph, hsh⟩ := closeStep_eq hc
    constructor <;> simp [Published, hp, hph, hsh, closeMove_of_closeStep hc]
  case h_9 =>
    split at h
    iterate 3
      next hp =>
        cases h
        constructor <;> simp [Published, hp]
    all_goals cases h

end Driver

/-! ## The tunnel -/

namespace ServerTunnel

inductive Move (s : ServerTunnel) : Action → ServerTunnel → Prop where
  | shutdown : Move s .shutdown { s with shutdownRequested := true }
  | close : Move s .close { s with shared := { s.shared with closed := true } }
  | driver : Driver.StepSpec s.shared sh s.driver d →
      Move s (.driver e) { s with driver := d, shared := sh }
  | accept : s.driver.phase = .selecting →
      Move s .accept { s with
        shared := s.shared.startRequest
        requests := s.requests ++ [{ admitted := !s.driver.shuttingDown }] }
  | request : s.requests[i]? = some r →
      (r.phase = .committing → ∀ p ∈ s.opens, p.holdsLock = false) →
      RequestPhase.StepSpec s.shared sh r.phase p →
      Move s (.request i e)
        { s with shared := sh, requests := s.requests.set i { r with phase := p } }
  | callOpen : Move s .callOpen { s with opens := s.opens ++ [.readWithdrawn] }
  | openStep : s.opens[i]? = some p → p ≠ .committing → OpenPhase.StepSpec s.shared sh p p' →
      Move s (.openStep i e) { s with shared := sh, opens := s.opens.set i p' }
  | create : s.opens[i]? = some .committing → OpenPhase.StepSpec s.shared sh .committing p' →
      Move s (.openStep i e)
        { s with shared := sh, opens := s.opens.set i p', streams := s.streams ++ [{}] }
  | stream : s.streams[i]? = some l → l.step e = some l' →
      Move s (.stream i e)
        { s with shared := released s.shared e, streams := s.streams.set i l' }

variable {s t : ServerTunnel} {a : Action}

/-- A commit waits for the read lock. -/
theorem unlocked_of_requestReady {p : RequestPhase} {e : RequestEvent} {i : Nat} {admitted : Bool}
    {sh sh' : Shared} {p' : RequestPhase} (hr : s.requestReady p e = true)
    (hs : p.step sh i admitted e = some (p', sh')) (hp : p = .committing) :
    ∀ q ∈ s.opens, q.holdsLock = false := by
  subst hp
  cases e with
  | proceed => simpa [requestReady] using hr
  | _ => simp [RequestPhase.step] at hs

theorem move_of_step (h : system.step s a = some t) : Move s a t := by
  simp only [system] at h
  cases a with
  | shutdown =>
    cases h
    exact .shutdown
  | close =>
    cases h
    exact .close
  | driver e =>
    obtain ⟨⟨d, sh⟩, hs, rfl⟩ := Option.map_eq_some_iff.mp h
    exact .driver (Driver.step_spec hs)
  | accept =>
    obtain ⟨hp, rfl⟩ := Option.ite_some_none_eq_some.mp h
    exact .accept hp
  | request i e =>
    simp only [step] at h
    split at h
    next => cases h
    next r hr =>
      obtain ⟨hre, h⟩ := Option.ite_none_right_eq_some.mp h
      obtain ⟨⟨p, sh⟩, hs, rfl⟩ := Option.map_eq_some_iff.mp h
      exact .request hr (unlocked_of_requestReady hre hs) (RequestPhase.step_spec hs)
  | callOpen =>
    cases h
    exact .callOpen
  | openStep i e =>
    simp only [step] at h
    split at h
    next => cases h
    next p hp =>
      obtain ⟨⟨p', sh⟩, hs, rfl⟩ := Option.map_eq_some_iff.mp h
      have hsp := OpenPhase.step_spec hs
      by_cases hc : p = .committing
      · subst hc
        exact .create hp hsp
      · simp only [if_neg hc]
        exact .openStep hp hc hsp
  | stream i e =>
    simp only [step] at h
    split at h
    next => cases h
    next l hl =>
      obtain ⟨l', hs, rfl⟩ := Option.map_eq_some_iff.mp h
      exact .stream hl hs

/-- The counters are what is in flight. -/
structure Accounted (s : ServerTunnel) : Prop where
  requests : s.shared.requestsInFlight = tally OpenPhase.onRequests s.opens +
    tally (·.resource.first) s.streams + tally (·.phase.counted) s.requests
  visitors : s.shared.visitorWork = tally OpenPhase.onVisitors s.opens +
    tally (·.resource.second) s.streams
  sound : ∀ l ∈ s.streams, l.Sound

theorem accounted_start : Accounted {} := by
  constructor <;> simp

theorem Accounted.move (h : s.Accounted) (hm : Move s a t) : t.Accounted := by
  obtain ⟨hre, hv, hso⟩ := h
  cases hm with
  | driver hd => exact ⟨hd.requests.trans hre, hd.visitors.trans hv, hso⟩
  | accept =>
    refine ⟨?_, hv, hso⟩
    simp only [Shared.startRequest, tally_concat, RequestPhase.counted, hre]
    omega
  | @request _ r _ p _ hr _ hsp =>
    obtain ⟨hle, hst⟩ := tally_set (·.phase.counted) { r with phase := p } hr
    have hc := hsp.requests (by omega)
    refine ⟨?_, hsp.visitors.trans hv, hso⟩
    simp only at hst ⊢
    omega
  | callOpen => exact ⟨by simp [hre], by simp [hv], hso⟩
  | @openStep _ p _ p' _ hp hne hsp =>
    obtain ⟨hle, hst⟩ := tally_set OpenPhase.onRequests p' hp
    obtain ⟨hle', hs'⟩ := tally_set OpenPhase.onVisitors p' hp
    have hh : p.handsOver = 0 := if_neg hne
    have hc := hsp.requests (by omega)
    have hc' := hsp.visitors (by omega)
    refine ⟨?_, ?_, hso⟩
    all_goals
      simp only
      omega
  | @create _ _ p' _ hp hsp =>
    obtain ⟨hle, hst⟩ := tally_set OpenPhase.onRequests p' hp
    obtain ⟨hle', hs'⟩ := tally_set OpenPhase.onVisitors p' hp
    have hh : OpenPhase.handsOver .committing = 1 := rfl
    have hc := hsp.requests (by omega)
    have hc' := hsp.visitors (by omega)
    refine ⟨?_, ?_, ?_⟩
    · have hf : ResourcePhase.first .held = 1 := rfl
      simp only [tally_concat]
      omega
    · have hse : ResourcePhase.second .held = 1 := rfl
      simp only [tally_concat]
      omega
    · exact forall_mem_concat hso StreamLease.sound_new
  | @stream _ l l' e hl hstep =>
    have hs := hso l (List.mem_of_getElem? hl)
    obtain ⟨hf, hse⟩ := hs.resource_step hstep
    obtain ⟨hle, hst⟩ := tally_set (·.resource.first) l' hl
    obtain ⟨hle', hs'⟩ := tally_set (·.resource.second) l' hl
    refine ⟨?_, ?_, forall_mem_set hso (hs.step hstep)⟩
    all_goals
      cases e with
      | releaseFirst | releaseSecond =>
        simp only [released, Shared.dropRequest, Shared.dropVisitor, reduceCtorEq,
          if_true, if_false] at hf hse ⊢
        omega
      | _ =>
        simp only [released, reduceCtorEq, if_false] at hf hse ⊢
        omega
  | _ => exact ⟨hre, hv, hso⟩

/-- No stream of the connection has a half that is not dropped. -/
def AllDropped (s : ServerTunnel) : Prop := ∀ l ∈ s.streams, l.Dropped

theorem Accounted.allDropped (h : s.Accounted) (hg : ∀ l ∈ s.streams, l.resource ≠ .held) :
    s.AllDropped :=
  fun l hl => (h.sound l hl).dropped (hg l hl)

end ServerTunnel

end Runewarp.Tunnel
