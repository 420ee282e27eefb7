import Mathlib.Algebra.GroupWithZero.Nat
import Mathlib.Algebra.Order.BigOperators.Group.List
import Runewarp.Tunnel.VisitorCredits
import Runewarp.Tunnel.WithdrawalAttempt

/-!
# The Client's withdrawal

`ClientTunnel::withdrawal` asks the Server to withdraw a connection from placement.  It sends
a request, and a second one on a fresh stream when the first had no response or `408`.  Only a
complete `204` without content is a confirmation.  It is recorded at once; then the idle
permits are released, the local Visitors waited for, and the connection is closed, as it is
after every other outcome.

A withdrawal keeps what its attempts have seen.  A confirmed outcome is compared with these
transcripts (`Clean`), and the release of idle permits with its reasons: a confirmation, DRAIN,
or the end of the session, of the connection or of its owner.
-/

namespace Runewarp.Tunnel

/-! ## The withdrawal -/

inductive UnconfirmedDrain where
  | connectionLost
  | retryExhausted
  | requestsForbidden
  | deadline
  | fastShutdown
deriving DecidableEq

inductive ProtocolFailure where
  | status (code : Nat)
  | malformedConfirmation
deriving DecidableEq

inductive WithdrawalOutcome where
  | confirmed
  | unconfirmed (drain : UnconfirmedDrain)
  | protocolFailure (failure : ProtocolFailure)
deriving DecidableEq

inductive WithdrawalStep where
  | retry
  | done (outcome : WithdrawalOutcome)
deriving DecidableEq

def WithdrawalAttempt.nextStep (retryAvailable : Bool) : WithdrawalAttempt → WithdrawalStep
  | .confirmed => .done .confirmed
  | .noResponse => if retryAvailable then .retry else .done (.unconfirmed .retryExhausted)
  | .status code =>
    if code = requestTimeout then
      if retryAvailable then .retry else .done (.unconfirmed .retryExhausted)
    else .done (.protocolFailure (.status code))
  | .malformedConfirmation => .done (.protocolFailure .malformedConfirmation)
  | .requestsForbidden => .done (.unconfirmed .requestsForbidden)
  | .connectionLost => .done (.unconfirmed .connectionLost)

/-- Where the future of `withdrawal` stands. -/
inductive WithdrawalPhase where
  | attempting (retryAvailable : Bool) (attempt : AttemptPhase)
  /-- The attempt had no response; `close_reason` is to be read. -/
  | unanswered (retryAvailable : Bool)
  /-- The confirmation is recorded. -/
  | recorded
  /-- In `stop_idle`. -/
  | releasing
  /-- Waits for the local Visitors, or the end of the connection. -/
  | draining
  | closing (outcome : WithdrawalOutcome)
  | completed (outcome : WithdrawalOutcome)
  /-- The caller dropped the future. -/
  | dropped
deriving DecidableEq

structure Withdrawal where
  phase : WithdrawalPhase := .attempting true .building
  /-- The attempts that have ended: what each has seen, and how it was classified. -/
  past : List (List AttemptEvent × WithdrawalAttempt) := []
  /-- What the present attempt has seen. -/
  current : List AttemptEvent := []
deriving DecidableEq

namespace Withdrawal

def transcripts (w : Withdrawal) : List (List AttemptEvent) := w.past.map Prod.fst ++ [w.current]

/-- The requests whose stream was opened. -/
def requests (w : Withdrawal) : Nat := (w.transcripts.map (·.count .opened)).sum

/-- The attempt sees an event. -/
def see (w : Withdrawal) (event : AttemptEvent) : Withdrawal :=
  { w with current := w.current ++ [event] }

/-- The rest of the loop, after an attempt. -/
def settle (w : Withdrawal) (retryAvailable : Bool) (attempt : WithdrawalAttempt) : Withdrawal where
  past := w.past ++ [(w.current, attempt)]
  phase :=
    match attempt.nextStep retryAvailable with
    | .retry => .attempting false .building
    | .done .confirmed => .recorded
    | .done outcome => .closing outcome

end Withdrawal

inductive WithdrawalEvent where
  | attempt (event : AttemptEvent)
  /-- The branch of `connection.closed()`. -/
  | lost
  | proceed
  | drop
deriving DecidableEq

/-! ## The connection -/

/-- Where the loop of the session task stands, as far as it releases idle permits. -/
inductive SessionLoop where
  | selecting (draining : Bool)
  /-- In `stop_idle`, at DRAIN. -/
  | stopping
  /-- The loop is left, and the connection to be closed. -/
  | left
  /-- `CreditMaintenance` is to be dropped. -/
  | ending
  /-- In its `close`. -/
  | releasing
  | over
deriving DecidableEq

inductive SessionLoopEvent where
  /-- The branch of `session.draining()`. -/
  | drain
  | leave
  | proceed
  | abort
deriving DecidableEq

structure WithdrawingTunnel where
  credits : VisitorCredits := {}
  /-- The budget of the Client instance. -/
  budget : Semaphore Nat
  /-- The connection has a close reason. -/
  closed : Bool := false
  /-- `withdrawal_confirmed`. -/
  confirmed : Bool := false
  /-- DRAIN has come. -/
  drained : Bool := false
  /-- The session was terminated. -/
  terminated : Bool := false
  /-- The `ClientTunnel` is held. -/
  owned : Bool := true
  session : SessionLoop := .selecting false
  withdrawals : List Withdrawal := []

/-- The calls that are not made by a withdrawal or at the end of the session task. -/
def VisitorCredits.Event.isOrdinary : VisitorCredits.Event → Bool
  | .stopReplenishing | .stopIdle | .close | .idleReleased => false
  | _ => true

namespace WithdrawingTunnel

/-- A call on the credits. -/
def onCredits (s : WithdrawingTunnel) (event : VisitorCredits.Event) :
    Option WithdrawingTunnel :=
  (s.credits.step 0 s.budget event).map fun (credits, budget) =>
    { s with credits := credits, budget := budget }

/-- One step of a withdrawal. -/
def withdrawalStep (s : WithdrawingTunnel) (w : Withdrawal) (event : WithdrawalEvent) :
    Option (WithdrawingTunnel × Withdrawal) :=
  match w.phase, event with
  | .attempting retryAvailable attempt, .attempt event =>
    (attempt.step s.closed event).map fun
      | .goes phase => (s, { w.see event with phase := .attempting retryAvailable phase })
      | .returns .noResponse => (s, { w.see event with phase := .unanswered retryAvailable })
      | .returns .confirmed =>
        ({ s with confirmed := true }, (w.see event).settle retryAvailable .confirmed)
      | .returns attempt => (s, (w.see event).settle retryAvailable attempt)
  | .attempting retryAvailable _, .lost =>
    if s.closed then some (s, w.settle retryAvailable .connectionLost) else none
  | .unanswered retryAvailable, .proceed =>
    some (s, w.settle retryAvailable (if s.closed then .connectionLost else .noResponse))
  | .recorded, .proceed =>
    (s.onCredits .stopIdle).map fun s => (s, { w with phase := .releasing })
  | .releasing, .proceed =>
    (s.onCredits .idleReleased).map fun s => (s, { w with phase := .draining })
  | .draining, .proceed =>
    if s.credits.active = 0 ∨ s.closed = true then
      some (s, { w with phase := .closing .confirmed })
    else none
  | .closing outcome, .proceed =>
    some ({ s with closed := true }, { w with phase := .completed outcome })
  | .attempting _ _, .drop | .draining, .drop => some (s, { w with phase := .dropped })
  | _, _ => none

/-- One step of the session task. -/
def sessionStep (s : WithdrawingTunnel) (event : SessionLoopEvent) : Option WithdrawingTunnel :=
  match s.session, event with
  | .selecting false, .drain =>
    if s.drained = true ∨ s.terminated = true then
      (s.onCredits .stopIdle).map fun s => { s with session := .stopping }
    else none
  | .stopping, .proceed =>
    (s.onCredits .idleReleased).map fun s => { s with session := .selecting true }
  | .selecting _, .leave => some { s with session := .left }
  | .left, .proceed => some { s with closed := true, session := .ending }
  | .ending, .proceed => (s.onCredits .close).map fun s => { s with session := .releasing }
  | .releasing, .proceed => (s.onCredits .idleReleased).map fun s => { s with session := .over }
  | .selecting _, .abort => if s.owned then none else some { s with session := .ending }
  | _, _ => none

inductive Action where
  /-- `withdrawal` is called. -/
  | withdraw
  | withdrawal (i : Nat) (event : WithdrawalEvent)
  | session (event : SessionLoopEvent)
  | credits (event : VisitorCredits.Event)
  /-- Other connections use the budget. -/
  | budget (budget : Semaphore Nat)
  | close
  | peerDrain
  | terminate
  /-- The handle is dropped. -/
  | drop

def step (s : WithdrawingTunnel) : Action → Option WithdrawingTunnel
  | .withdraw =>
    if s.owned then
      (s.onCredits .stopReplenishing).map fun s =>
        { s with withdrawals := s.withdrawals ++ [{}] }
    else none
  | .withdrawal i event =>
    match s.withdrawals[i]? with
    | none => none
    | some w =>
      (s.withdrawalStep w event).map fun (s, w) =>
        { s with withdrawals := s.withdrawals.set i w }
  | .session event => s.sessionStep event
  | .credits event => if event.isOrdinary then s.onCredits event else none
  | .budget budget => some { s with budget := budget }
  | .close => some { s with closed := true }
  | .peerDrain => some { s with drained := true }
  | .terminate => some { s with terminated := true }
  | .drop => some { s with owned := false }

def system : Lts WithdrawingTunnel Action := ⟨step⟩

end WithdrawingTunnel

/-! ## What a withdrawal has done -/

/-- No response, or `408`. -/
def WithdrawalAttempt.retryable (attempt : WithdrawalAttempt) : Bool :=
  attempt = .noResponse ∨ attempt = .status requestTimeout

namespace Withdrawal

/-- An attempt was confirmed. -/
def Confirmed (w : Withdrawal) : Prop := ∃ events, (events, .confirmed) ∈ w.past

/-- The attempts before the present one. -/
def Retried (w : Withdrawal) (retryAvailable : Bool) : Prop :=
  (retryAvailable = true ∧ w.past = []) ∨
  (retryAvailable = false ∧ ∃ events a, w.past = [(events, a)] ∧ a.retryable = true)

/-- What the phase of a withdrawal says about its attempts. -/
def InPhase (w : Withdrawal) : Prop :=
  match w.phase with
  | .attempting retryAvailable attempt => w.Retried retryAvailable ∧ attempt.Sees w.current
  | .unanswered retryAvailable => w.Retried retryAvailable
  | .recorded | .releasing | .draining => w.Confirmed
  | .closing outcome | .completed outcome => outcome = .confirmed ↔ w.Confirmed
  | .dropped => True

structure Sound (w : Withdrawal) : Prop where
  inPhase : w.InPhase
  /-- The classification of the attempts that have ended. -/
  classified : ∀ x ∈ w.past, x.2 = .confirmed ↔ Clean x.1
  current : ¬ Clean w.current
  opened : ∀ events ∈ w.transcripts, events.count .opened ≤ 1
  /-- There are at most two attempts. -/
  bounded : w.past.length + (if w.current = [] then 0 else 1) ≤ 2

variable {w : Withdrawal} {retryAvailable : Bool} {a : WithdrawalAttempt}

theorem sound_new : Sound {} where
  inPhase := ⟨.inl ⟨rfl, rfl⟩, rfl⟩
  classified := nofun
  current h := by
    have hl := AttemptPhase.getLast?_of_clean h
    cases hl
  opened := by decide
  bounded := by decide

theorem Retried.length_le (h : w.Retried retryAvailable) : w.past.length ≤ 1 := by
  rcases h with ⟨-, h⟩ | ⟨-, events, a, h, -⟩ <;> rw [h] <;> simp

theorem Retried.not_confirmed (h : w.Retried retryAvailable) : ¬ w.Confirmed := by
  rintro ⟨events, hm⟩
  rcases h with ⟨-, h⟩ | ⟨-, events', a, h, hr⟩
  · rw [h] at hm
    cases hm
  · rw [h, List.mem_singleton] at hm
    cases hm
    cases hr

theorem of_nextStep_retry (h : a.nextStep retryAvailable = .retry) :
    retryAvailable = true ∧ a.retryable = true := by
  cases a with
  | noResponse =>
    cases retryAvailable <;> cases h
    exact ⟨rfl, rfl⟩
  | status code =>
    simp only [WithdrawalAttempt.nextStep] at h
    split at h
    next hc =>
      cases retryAvailable <;> cases h
      exact ⟨rfl, by rw [hc]; rfl⟩
    next => cases h
  | _ => cases h

theorem of_nextStep_done {outcome : WithdrawalOutcome}
    (h : a.nextStep retryAvailable = .done outcome) : outcome = .confirmed ↔ a = .confirmed := by
  cases a with
  | noResponse =>
    cases retryAvailable <;> cases h
    exact ⟨nofun, nofun⟩
  | status code =>
    simp only [WithdrawalAttempt.nextStep] at h
    split at h
    next =>
      cases retryAvailable <;> cases h
      exact ⟨nofun, nofun⟩
    next =>
      cases h
      exact ⟨nofun, nofun⟩
  | confirmed =>
    cases h
    exact ⟨fun _ => rfl, fun _ => rfl⟩
  | _ =>
    cases h
    exact ⟨nofun, nofun⟩

theorem confirmed_settle (hr : w.Retried retryAvailable) :
    (w.settle retryAvailable a).Confirmed ↔ a = .confirmed := by
  constructor
  · rintro ⟨events, hm⟩
    rcases List.mem_append.mp hm with hm | hm
    · exact absurd ⟨events, hm⟩ hr.not_confirmed
    · cases List.mem_singleton.mp hm
      rfl
  · rintro rfl
    exact ⟨w.current, List.mem_append_right _ (List.mem_singleton_self _)⟩

theorem sound_settle (hcl : ∀ x ∈ w.past, x.2 = .confirmed ↔ Clean x.1)
    (hop : ∀ events ∈ w.transcripts, events.count .opened ≤ 1)
    (hr : w.Retried retryAvailable) (hca : a = .confirmed ↔ Clean w.current) :
    (w.settle retryAvailable a).Sound where
  inPhase := by
    have hc := confirmed_settle (a := a) hr
    unfold InPhase
    cases hn : a.nextStep retryAvailable with
    | retry =>
      obtain ⟨rfl, hre⟩ := of_nextStep_retry hn
      rcases hr with ⟨-, hp⟩ | ⟨hf, -⟩
      · simp only [Withdrawal.settle, hn, hp]
        exact ⟨.inr ⟨rfl, w.current, a, rfl, hre⟩, rfl⟩
      · cases hf
    | done outcome =>
      have ho := of_nextStep_done hn
      cases outcome with
      | confirmed =>
        simp only [Withdrawal.settle, hn] at hc ⊢
        exact hc.mpr (ho.mp rfl)
      | _ =>
        simp only [Withdrawal.settle, hn] at hc ⊢
        exact ho.trans hc.symm
  classified := forall_mem_concat hcl hca
  current := sound_new.current
  opened := by
    intro events hm
    simp only [transcripts, Withdrawal.settle, List.map_append, List.map_singleton,
      List.mem_append, List.mem_singleton] at hm
    rcases hm with (hm | rfl) | rfl
    · exact hop events (List.mem_append_left _ hm)
    · exact hop w.current (List.mem_append_right _ (List.mem_singleton_self _))
    · exact Nat.zero_le 1
  bounded := by
    have hl := hr.length_le
    simp only [Withdrawal.settle, List.length_append, List.length_singleton, if_true]
    omega

theorem Sound.opened_see (h : w.Sound) {event : AttemptEvent}
    (ho : (w.current ++ [event]).count .opened ≤ 1) :
    ∀ events ∈ (w.see event).transcripts, events.count .opened ≤ 1 := by
  intro events hm
  rcases List.mem_append.mp hm with hm | hm
  · exact h.opened events (List.mem_append_left _ hm)
  · rw [List.mem_singleton.mp hm]
    exact ho

theorem Sound.see (h : w.Sound) {event : AttemptEvent} {phase : WithdrawalPhase}
    (hr : w.Retried retryAvailable)
    (hp : InPhase { w.see event with phase := phase })
    (hc : ¬ Clean (w.current ++ [event]))
    (ho : (w.current ++ [event]).count .opened ≤ 1) :
    Sound { w.see event with phase := phase } where
  inPhase := hp
  classified := h.classified
  current := hc
  opened := h.opened_see ho
  bounded := by
    have hl := hr.length_le
    change w.past.length + _ ≤ 2
    split <;> omega

theorem Sound.phase (h : w.Sound) {phase : WithdrawalPhase}
    (hp : InPhase { w with phase := phase }) : Sound { w with phase := phase } :=
  ⟨hp, h.classified, h.current, h.opened, h.bounded⟩

theorem Sound.requests_le (h : w.Sound) : w.requests ≤ 2 := by
  have hp : (w.past.map (·.1.count .opened)).sum ≤ w.past.length := by
    have ho : ∀ n ∈ w.past.map (·.1.count .opened), n ≤ 1 := by
      intro n hn
      obtain ⟨x, hx, rfl⟩ := List.mem_map.mp hn
      exact h.opened x.1 (List.mem_append_left _ (List.mem_map_of_mem hx))
    simpa using List.sum_le_card_nsmul _ 1 ho
  have hc : w.current.count .opened ≤ if w.current = [] then 0 else 1 := by
    split
    next he =>
      rw [he]
      exact Nat.le_refl 0
    next => exact h.opened w.current (List.mem_append_right _ (List.mem_singleton_self _))
  have hr :
      w.requests = (w.past.map (·.1.count .opened)).sum + w.current.count .opened := by
    simp [requests, transcripts, Function.comp_def]
  have hb := h.bounded
  omega

end Withdrawal

/-! ## The connection while it withdraws -/

namespace VisitorCredits

variable {self : Nat} {c c' : VisitorCredits} {budget budget' : Semaphore Nat} {event : Event}

theorem releasing_assign (c : VisitorCredits) (budget : Semaphore Nat) :
    ((c.assign budget).getD (c, budget)).1.releasing = c.releasing := by
  unfold assign
  split
  next => rfl
  next =>
    split
    next => rfl
    next => split <;> rfl

theorem stream_frame {i : Nat} {e : LeaseEvent}
    (h : c.step self budget (.stream i e) = some (c', budget')) :
    c'.releasing = c.releasing ∧ c'.idle = c.idle := by
  simp only [step] at h
  split at h
  next => cases h
  next l hi =>
    obtain ⟨l', -, h⟩ := Option.bind_eq_some_iff.mp h
    cases e with
    | beforeDrop half =>
      obtain ⟨-, ⟨⟩⟩ := Option.ite_some_none_eq_some.mp h
      exact ⟨rfl, rfl⟩
    | _ =>
      cases h
      exact ⟨rfl, rfl⟩

/-- An ordinary call begins no release, and takes idle permits for a Visitor or in a release. -/
theorem of_ordinary (ho : event.isOrdinary = true)
    (h : c.step self budget event = some (c', budget')) :
    c'.releasing = c.releasing ∧
      (c'.idle < c.idle → event = .assign ∨ c.releasing = true) := by
  cases event with
  | poll | dropRefused =>
    obtain ⟨-, ⟨⟩⟩ := Option.ite_some_none_eq_some.mp h
    exact ⟨rfl, fun hlt => absurd hlt (Nat.lt_irrefl _)⟩
  | cancel =>
    cases h
    exact ⟨rfl, fun hlt => absurd hlt (Nat.lt_irrefl _)⟩
  | offer =>
    obtain ⟨-, ⟨⟩⟩ := Option.ite_some_none_eq_some.mp h
    split
    · exact ⟨rfl, fun hlt => absurd hlt (Nat.not_lt.mpr (Nat.le_succ _))⟩
    · exact ⟨rfl, fun hlt => absurd hlt (Nat.lt_irrefl _)⟩
  | assign =>
    simp only [step, Option.ite_none_right_eq_some, Option.some.injEq] at h
    have hr := releasing_assign c budget
    rw [h.2] at hr
    exact ⟨hr, fun _ => .inl rfl⟩
  | dropIdle =>
    obtain ⟨⟨hr, -⟩, ⟨⟩⟩ := Option.ite_some_none_eq_some.mp h
    exact ⟨rfl, fun _ => .inr hr⟩
  | stream i e =>
    obtain ⟨hr, hi⟩ := stream_frame h
    exact ⟨hr, fun hlt => absurd hlt (hi ▸ Nat.lt_irrefl _)⟩
  | _ => cases ho

/-- The other calls leave the idle permits, and only two of them begin a release. -/
theorem of_not_ordinary (ho : event.isOrdinary = false)
    (h : c.step self budget event = some (c', budget')) :
    c'.idle = c.idle ∧
      (c'.releasing = true → c.releasing = true ∨ event = .stopIdle ∨ event = .close) := by
  cases event with
  | stopReplenishing =>
    obtain ⟨-, ⟨⟩⟩ := Option.ite_some_none_eq_some.mp h
    exact ⟨rfl, .inl⟩
  | stopIdle =>
    obtain ⟨-, ⟨⟩⟩ := Option.ite_some_none_eq_some.mp h
    exact ⟨rfl, fun _ => .inr (.inl rfl)⟩
  | close =>
    obtain ⟨-, ⟨⟩⟩ := Option.ite_some_none_eq_some.mp h
    exact ⟨rfl, fun _ => .inr (.inr rfl)⟩
  | idleReleased =>
    obtain ⟨-, ⟨⟩⟩ := Option.ite_some_none_eq_some.mp h
    exact ⟨rfl, nofun⟩
  | _ => cases ho

end VisitorCredits

namespace WithdrawingTunnel

variable {event : VisitorCredits.Event} {i : Nat}

theorem of_onCredits {s u : WithdrawingTunnel} (h : s.onCredits event = some u) :
    ∃ c b, s.credits.step 0 s.budget event = some (c, b) ∧
      u = { s with credits := c, budget := b } := by
  obtain ⟨⟨c, b⟩, hs, rfl⟩ := Option.map_eq_some_iff.mp h
  exact ⟨c, b, hs, rfl⟩

/-- What a step of a withdrawal can do. -/
inductive WithdrawalMove (s : WithdrawingTunnel) (w : Withdrawal) :
    WithdrawingTunnel → Withdrawal → Prop where
  /-- It touches nothing that is shared. -/
  | inside : w'.Sound → (w'.Confirmed ↔ w.Confirmed) → (∀ o, w'.phase ≠ .completed o) →
      WithdrawalMove s w s w'
  | confirm : w'.Sound → w'.Confirmed → (∀ o, w'.phase ≠ .completed o) →
      WithdrawalMove s w { s with confirmed := true } w'
  | stopIdle : w.Confirmed → s.onCredits .stopIdle = some u →
      WithdrawalMove s w u { w with phase := .releasing }
  | released : w.Confirmed → s.onCredits .idleReleased = some u →
      WithdrawalMove s w u { w with phase := .draining }
  | close : w.phase = .closing o →
      WithdrawalMove s w { s with closed := true } { w with phase := .completed o }

variable {s t u : WithdrawingTunnel} {w w' : Withdrawal}

theorem not_completed_settle (w : Withdrawal) (retryAvailable : Bool) (a : WithdrawalAttempt)
    (o : WithdrawalOutcome) : (w.settle retryAvailable a).phase ≠ .completed o := by
  simp only [Withdrawal.settle]
  split <;> nofun

/-- An attempt that is not confirmed ends; `w'` is the withdrawal with all that it has seen. -/
theorem WithdrawalMove.settle {retryAvailable : Bool} {a : WithdrawalAttempt}
    (hr : w.Retried retryAvailable) (hp : w'.past = w.past)
    (hs : (w'.settle retryAvailable a).Sound) (ha : a ≠ .confirmed) :
    WithdrawalMove s w s (w'.settle retryAvailable a) := by
  have hr' : w'.Retried retryAvailable := by
    unfold Withdrawal.Retried
    rw [hp]
    exact hr
  have haf : ¬ (w'.settle retryAvailable a).Confirmed := fun h =>
    ha ((Withdrawal.confirmed_settle hr').mp h)
  exact .inside hs ⟨fun h => absurd h haf, fun h => absurd h hr.not_confirmed⟩
    (not_completed_settle w' retryAvailable a)

theorem WithdrawalMove.attempt {retryAvailable : Bool} {p : AttemptPhase} {event : AttemptEvent}
    {r : AttemptStep} (hw : w.Sound) (hr : w.Retried retryAvailable)
    (hse : p.Sees w.current) (hst : p.step s.closed event = some r) :
    match r with
    | .goes p' =>
      WithdrawalMove s w s { w.see event with phase := .attempting retryAvailable p' }
    | .returns .noResponse =>
      WithdrawalMove s w s { w.see event with phase := .unanswered retryAvailable }
    | .returns .confirmed =>
      WithdrawalMove s w { s with confirmed := true }
        ((w.see event).settle retryAvailable .confirmed)
    | .returns a => WithdrawalMove s w s ((w.see event).settle retryAvailable a) := by
  cases r with
  | goes p' =>
    have hn := hse.goes hst
    exact .inside (hw.see hr ⟨hr, hn⟩ hn.not_clean hn.count_opened)
      Iff.rfl nofun
  | returns a =>
    have hcl := hse.returns hst
    have ho := hse.count_returned hst
    have hs : ((w.see event).settle retryAvailable a).Sound :=
      Withdrawal.sound_settle hw.classified (hw.opened_see ho) hr hcl
    cases a with
    | confirmed =>
      have hc := (Withdrawal.confirmed_settle (w := w.see event) hr).mpr rfl
      exact .confirm hs hc (not_completed_settle _ _ _)
    | noResponse =>
      have hce : ¬ Clean (w.current ++ [event]) := fun h => nomatch hcl.mpr h
      exact .inside (hw.see hr hr hce ho) Iff.rfl nofun
    | _ => exact .settle hr rfl hs nofun

theorem move_of_withdrawalStep {event : WithdrawalEvent} (hw : w.Sound)
    (h : s.withdrawalStep w event = some (t, w')) : WithdrawalMove s w t w' := by
  have hp := hw.inPhase
  unfold Withdrawal.InPhase at hp
  unfold withdrawalStep at h
  split at h
  next retryAvailable p event heq =>
    rw [heq] at hp
    obtain ⟨r, hr, h⟩ := Option.map_eq_some_iff.mp h
    have hm := WithdrawalMove.attempt hw hp.1 hp.2 hr
    cases r with
    | goes p' =>
      cases h
      exact hm
    | returns a =>
      cases a <;> cases h <;> exact hm
  next retryAvailable p heq =>
    rw [heq] at hp
    split at h
    next =>
      cases h
      have hs := Withdrawal.sound_settle (a := .connectionLost) hw.classified hw.opened
        hp.1 ⟨nofun, fun hc => absurd hc hw.current⟩
      exact .settle hp.1 rfl hs nofun
    next => cases h
  next retryAvailable heq =>
    rw [heq] at hp
    cases h
    have hne : (if s.closed then WithdrawalAttempt.connectionLost else .noResponse) ≠
        .confirmed := by
      split <;> nofun
    have hs := Withdrawal.sound_settle hw.classified hw.opened hp
      ⟨fun h => absurd h hne, fun hc => absurd hc hw.current⟩
    exact .settle hp rfl hs hne
  next heq =>
    rw [heq] at hp
    obtain ⟨u, hu, heq⟩ := Option.map_eq_some_iff.mp h
    cases heq
    exact .stopIdle hp hu
  next heq =>
    rw [heq] at hp
    obtain ⟨u, hu, heq⟩ := Option.map_eq_some_iff.mp h
    cases heq
    exact .released hp hu
  next heq =>
    rw [heq] at hp
    split at h
    next =>
      cases h
      exact .inside (hw.phase ⟨fun _ => hp, fun _ => rfl⟩) Iff.rfl nofun
    next => cases h
  next outcome heq =>
    cases h
    exact .close heq
  iterate 2
    next =>
      cases h
      exact .inside (hw.phase trivial) Iff.rfl nofun
  next => cases h

/-- What lets go of idle permits: a confirmation, DRAIN, or the end of the session, of the
connection or of its owner. -/
def MayRelease (s : WithdrawingTunnel) : Prop :=
  s.confirmed = true ∨ s.drained = true ∨ s.terminated = true ∨ s.closed = true ∨ s.owned = false

/-- What every step keeps. -/
structure Coherent (s : WithdrawingTunnel) : Prop where
  sound : ∀ w ∈ s.withdrawals, w.Sound
  recorded : s.confirmed = true ↔ ∃ w ∈ s.withdrawals, w.Confirmed
  completed : ∀ w ∈ s.withdrawals, ∀ o, w.phase = .completed o → s.closed = true
  ending : s.session = .ending → s.closed = true ∨ s.owned = false
  releasing : s.credits.releasing = true → s.MayRelease

theorem coherent_start (budget : Semaphore Nat) : Coherent { budget := budget } where
  sound := nofun
  recorded := ⟨nofun, fun ⟨_, h, _⟩ => nomatch h⟩
  completed := nofun
  ending := nofun
  releasing := nofun

/-- A call on the credits by one who may make it. -/
theorem Coherent.onCredits (h : s.Coherent) (hc : s.onCredits event = some u)
    (hm : event.isOrdinary = false → s.MayRelease ∨
      event = .stopReplenishing ∨ event = .idleReleased) : u.Coherent := by
  obtain ⟨c, b, hs, rfl⟩ := of_onCredits hc
  refine ⟨h.sound, h.recorded, h.completed, h.ending, fun hr => ?_⟩
  have hbe : s.credits.releasing = true ∨ s.MayRelease := by
    cases ho : event.isOrdinary with
    | true =>
      rw [(VisitorCredits.of_ordinary ho hs).1] at hr
      exact .inl hr
    | false =>
      rcases (VisitorCredits.of_not_ordinary ho hs).2 hr with hb | he
      · exact .inl hb
      · rcases hm ho with hm | rfl | rfl
        · exact .inr hm
        · rcases he with h | h <;> cases h
        · rcases he with h | h <;> cases h
  exact hbe.elim h.releasing id

theorem Coherent.close (h : s.Coherent) : Coherent { s with closed := true } where
  sound := h.sound
  recorded := h.recorded
  completed _ _ _ _ := rfl
  ending _ := .inl rfl
  releasing _ := .inr (.inr (.inr (.inl rfl)))

theorem Coherent.set (h : s.Coherent) (hi : s.withdrawals[i]? = some w) (hs : w'.Sound)
    (hc : w'.Confirmed ↔ w.Confirmed) (hco : ∀ o, w'.phase = .completed o → s.closed = true) :
    Coherent { s with withdrawals := s.withdrawals.set i w' } where
  sound := forall_mem_set h.sound hs
  recorded := by
    refine h.recorded.trans ⟨exists_mem_set hi hc.mpr, ?_⟩
    rintro ⟨z, hz, hz'⟩
    rcases List.mem_or_eq_of_mem_set hz with hz | rfl
    · exact ⟨z, hz, hz'⟩
    · exact ⟨w, List.mem_of_getElem? hi, hc.mp hz'⟩
  completed := forall_mem_set h.completed hco
  ending := h.ending
  releasing := h.releasing

theorem Coherent.withdrawal (h : s.Coherent) (hi : s.withdrawals[i]? = some w)
    (hm : WithdrawalMove s w t w') : Coherent { t with withdrawals := t.withdrawals.set i w' } := by
  have hme := List.mem_of_getElem? hi
  have hw := h.sound w hme
  have hma : w.Confirmed → s.MayRelease := fun hc => .inl (h.recorded.mpr ⟨w, hme, hc⟩)
  cases hm with
  | inside hs hco hp =>
    exact h.set hi hs hco fun o ho => absurd ho (hp o)
  | confirm hs hco hp =>
    have hse : w' ∈ s.withdrawals.set i w' := List.mem_of_getElem? (getElem?_set_moved hi)
    exact ⟨forall_mem_set h.sound hs, ⟨fun _ => ⟨w', hse, hco⟩, fun _ => rfl⟩,
      forall_mem_set h.completed fun o ho => absurd ho (hp o), h.ending,
      fun _ => .inl rfl⟩
  | stopIdle hco hca =>
    have hch := h.onCredits hca fun _ => .inl (hma hco)
    obtain ⟨c, b, -, rfl⟩ := of_onCredits hca
    exact hch.set hi (hw.phase hco) Iff.rfl nofun
  | released hco hca =>
    have hch := h.onCredits hca fun _ => .inr (.inr rfl)
    obtain ⟨c, b, -, rfl⟩ := of_onCredits hca
    exact hch.set hi (hw.phase hco) Iff.rfl nofun
  | close hp =>
    have hin := hw.inPhase
    unfold Withdrawal.InPhase at hin
    rw [hp] at hin
    exact h.close.set hi (hw.phase hin) Iff.rfl fun _ _ => rfl

/-- A call that is not ordinary leaves the idle permits, and every call the confirmation. -/
theorem frame_of_onCredits (ho : event.isOrdinary = false) (h : s.onCredits event = some u) :
    u.credits.idle = s.credits.idle ∧ u.confirmed = s.confirmed := by
  obtain ⟨c, b, hs, rfl⟩ := of_onCredits h
  exact ⟨(VisitorCredits.of_not_ordinary ho hs).1, rfl⟩

/-- The session task calls on the credits and goes on. -/
theorem Coherent.callCredits {phase : SessionLoop} (h : s.Coherent)
    (hca : s.onCredits event = some u) (ho : event.isOrdinary = false)
    (hm : s.MayRelease ∨ event = .idleReleased) (hp : phase ≠ .ending) :
    Coherent { u with session := phase } ∧ u.credits.idle = s.credits.idle ∧
      u.confirmed = s.confirmed := by
  have hu := h.onCredits hca fun _ => hm.imp_right .inr
  exact ⟨⟨hu.sound, hu.recorded, hu.completed, fun he => absurd he hp, hu.releasing⟩,
    frame_of_onCredits ho hca⟩

theorem Coherent.session {event : SessionLoopEvent} (h : s.Coherent)
    (hs : s.sessionStep event = some t) :
    t.Coherent ∧ t.credits.idle = s.credits.idle ∧ t.confirmed = s.confirmed := by
  unfold sessionStep at hs
  split at hs
  next =>
    obtain ⟨hd, hs⟩ := Option.ite_none_right_eq_some.mp hs
    obtain ⟨u, hca, rfl⟩ := Option.map_eq_some_iff.mp hs
    exact h.callCredits hca rfl (.inl (.inr (hd.imp_right .inl))) (by simp)
  next =>
    obtain ⟨u, hca, rfl⟩ := Option.map_eq_some_iff.mp hs
    exact h.callCredits hca rfl (.inr rfl) (by simp)
  next =>
    cases hs
    exact ⟨⟨h.sound, h.recorded, h.completed, nofun, h.releasing⟩, rfl, rfl⟩
  next =>
    cases hs
    have hc := h.close
    exact ⟨⟨hc.sound, hc.recorded, hc.completed, fun _ => .inl rfl, hc.releasing⟩, rfl, rfl⟩
  next he =>
    obtain ⟨u, hca, rfl⟩ := Option.map_eq_some_iff.mp hs
    exact h.callCredits hca rfl (.inl (.inr (.inr (.inr (h.ending he))))) (by simp)
  next =>
    obtain ⟨u, hca, rfl⟩ := Option.map_eq_some_iff.mp hs
    exact h.callCredits hca rfl (.inr rfl) (by simp)
  next =>
    split at hs
    next => cases hs
    next ho =>
      cases hs
      exact ⟨⟨h.sound, h.recorded, h.completed, fun _ => .inr (by simpa using ho),
        h.releasing⟩, rfl, rfl⟩
  next => cases hs

theorem Coherent.step {a : Action} (h : s.Coherent) (hs : system.step s a = some t) :
    t.Coherent := by
  simp only [system] at hs
  cases a with
  | withdraw =>
    obtain ⟨-, hs⟩ := Option.ite_none_right_eq_some.mp hs
    obtain ⟨u, hca, rfl⟩ := Option.map_eq_some_iff.mp hs
    have hu := h.onCredits hca fun _ => .inr (.inl rfl)
    refine ⟨forall_mem_concat hu.sound Withdrawal.sound_new, hu.recorded.trans ⟨?_, ?_⟩,
      forall_mem_concat hu.completed nofun, hu.ending, hu.releasing⟩
    · rintro ⟨w, hw, hc⟩
      exact ⟨w, List.mem_append_left _ hw, hc⟩
    · rintro ⟨w, hw, hc⟩
      rcases List.mem_append.mp hw with hw | hw
      · exact ⟨w, hw, hc⟩
      · obtain ⟨events, hm⟩ := List.mem_singleton.mp hw ▸ hc
        cases hm
  | withdrawal i event =>
    simp only [WithdrawingTunnel.step] at hs
    split at hs
    next => cases hs
    next w hi =>
      obtain ⟨⟨u, w'⟩, hca, rfl⟩ := Option.map_eq_some_iff.mp hs
      exact h.withdrawal hi (move_of_withdrawalStep (h.sound w (List.mem_of_getElem? hi)) hca)
  | session event => exact (h.session hs).1
  | credits event =>
    obtain ⟨hn, hs⟩ := Option.ite_none_right_eq_some.mp hs
    refine h.onCredits hs fun ho => ?_
    cases hn.symm.trans ho
  | budget budget =>
    cases hs
    exact ⟨h.sound, h.recorded, h.completed, h.ending, h.releasing⟩
  | close =>
    cases hs
    exact h.close
  | peerDrain =>
    cases hs
    exact ⟨h.sound, h.recorded, h.completed, h.ending, fun _ => .inr (.inl rfl)⟩
  | terminate =>
    cases hs
    exact ⟨h.sound, h.recorded, h.completed, h.ending, fun _ => .inr (.inr (.inl rfl))⟩
  | drop =>
    cases hs
    exact ⟨h.sound, h.recorded, h.completed, fun _ => .inr rfl,
      fun _ => .inr (.inr (.inr (.inr rfl)))⟩

/-! ## The contract of a withdrawal -/

theorem WithdrawalMove.frame (hm : WithdrawalMove s w t w') :
    t.credits.idle = s.credits.idle ∧ (s.confirmed = true → t.confirmed = true) := by
  cases hm with
  | confirm => exact ⟨rfl, fun _ => rfl⟩
  | stopIdle _ hca | released _ hca =>
    obtain ⟨hi, hc⟩ := frame_of_onCredits rfl hca
    exact ⟨hi, fun h => hc.trans h⟩
  | _ => exact ⟨rfl, id⟩

/-- A confirmation stands, and idle permits go to a Visitor or are released for a reason. -/
theorem Coherent.frame {a : Action} (h : s.Coherent) (hs : system.step s a = some t) :
    (s.confirmed = true → t.confirmed = true) ∧
      (t.credits.idle < s.credits.idle → a = .credits .assign ∨ s.MayRelease) := by
  simp only [system] at hs
  cases a with
  | withdraw =>
    obtain ⟨-, hs⟩ := Option.ite_none_right_eq_some.mp hs
    obtain ⟨u, hca, rfl⟩ := Option.map_eq_some_iff.mp hs
    obtain ⟨hid, hc⟩ := frame_of_onCredits rfl hca
    exact ⟨hc.trans, fun hlt => absurd hlt (Nat.not_lt.mpr hid.ge)⟩
  | withdrawal i event =>
    simp only [WithdrawingTunnel.step] at hs
    split at hs
    next => cases hs
    next w hi =>
      obtain ⟨⟨u, w'⟩, hca, rfl⟩ := Option.map_eq_some_iff.mp hs
      obtain ⟨hid, hc⟩ :=
        (move_of_withdrawalStep (h.sound w (List.mem_of_getElem? hi)) hca).frame
      exact ⟨hc, fun hlt => absurd hlt (Nat.not_lt.mpr hid.ge)⟩
  | session event =>
    obtain ⟨-, hid, hc⟩ := h.session hs
    exact ⟨hc.trans, fun hlt => absurd hlt (Nat.not_lt.mpr hid.ge)⟩
  | credits event =>
    obtain ⟨ho, hca⟩ := Option.ite_none_right_eq_some.mp hs
    obtain ⟨c, b, hcr, rfl⟩ := of_onCredits hca
    refine ⟨id, fun hlt => ?_⟩
    rcases (VisitorCredits.of_ordinary ho hcr).2 hlt with rfl | hr
    · exact .inl rfl
    · exact .inr (h.releasing hr)
  | _ =>
    cases hs
    exact ⟨id, fun hlt => absurd hlt (Nat.lt_irrefl _)⟩

theorem confirmed_iff_clean (hw : w.Sound) :
    w.Confirmed ↔ ∃ events ∈ w.transcripts, Clean events := by
  constructor
  · rintro ⟨events, hm⟩
    exact ⟨events, List.mem_append_left _ (List.mem_map_of_mem (f := Prod.fst) hm),
      (hw.classified _ hm).mp rfl⟩
  · rintro ⟨events, hm, hc⟩
    rcases List.mem_append.mp hm with hm | hm
    · obtain ⟨⟨events, a⟩, hx, rfl⟩ := List.mem_map.mp hm
      obtain rfl : a = .confirmed := (hw.classified _ hx).mpr hc
      exact ⟨events, hx⟩
    · rw [List.mem_singleton.mp hm] at hc
      exact absurd hc hw.current

/-- A stream opens on a usable connection, for a first request or for the one retry. -/
theorem of_opened (hw : w.Sound) (hi : s.withdrawals[i]? = some w)
    (hs : system.step s (.withdrawal i (.attempt .opened)) = some t) : s.closed = false ∧
      (w.past = [] ∨ ∃ events a, w.past = [(events, a)] ∧ a.retryable = true) := by
  simp only [system, WithdrawingTunnel.step, hi] at hs
  obtain ⟨⟨u, w'⟩, hc, -⟩ := Option.map_eq_some_iff.mp hs
  have hp := hw.inPhase
  unfold Withdrawal.InPhase at hp
  cases heq : w.phase with
  | attempting retryAvailable p =>
    simp only [withdrawalStep, heq] at hc hp
    obtain ⟨r, hr, -⟩ := Option.map_eq_some_iff.mp hc
    refine ⟨?_, hp.1.imp (·.2) (·.2)⟩
    cases p with
    | opening =>
      simp only [AttemptPhase.step] at hr
      split at hr
      next => cases hr
      next hcl => simpa using hcl
    | _ => cases hr
  | _ => simp only [withdrawalStep, heq, reduceCtorEq] at hc

/-- What a withdrawal keeps to, whatever the Server answers and when the connection is lost. -/
structure KeepsContract (s : WithdrawingTunnel) : Prop where
  /-- There are at most two requests, -/
  requests : ∀ w ∈ s.withdrawals, w.requests ≤ 2
  /-- and the second comes after no response or `408`, on a usable connection. -/
  retries : ∀ (i : Nat) w t, s.withdrawals[i]? = some w →
    system.step s (.withdrawal i (.attempt .opened)) = some t →
    s.closed = false ∧ (w.past = [] ∨ ∃ events a, w.past = [(events, a)] ∧ a.retryable = true)
  /-- A withdrawal that has completed was confirmed exactly when there was a clean `204`, and has
  closed the connection. -/
  outcomes : ∀ w ∈ s.withdrawals, ∀ o, w.phase = .completed o →
    (o = .confirmed ↔ ∃ events ∈ w.transcripts, Clean events) ∧ s.closed = true
  /-- `withdrawal_confirmed` is set with the confirmation, -/
  recorded : s.confirmed = true ↔ ∃ w ∈ s.withdrawals, ∃ events ∈ w.transcripts, Clean events
  /-- and stays. -/
  stands : s.confirmed = true → ∀ t, system.Reaches s t → t.confirmed = true
  /-- Idle permits go to a Visitor, or are released for a reason. -/
  releases : ∀ a t, system.step s a = some t → t.credits.idle < s.credits.idle →
    a = .credits .assign ∨ s.MayRelease

theorem Coherent.keepsContract (h : s.Coherent) : s.KeepsContract where
  requests w hw := (h.sound w hw).requests_le
  retries i w t hi hs := of_opened (h.sound w (List.mem_of_getElem? hi)) hi hs
  outcomes w hw o ho := by
    have hso := h.sound w hw
    have hp := hso.inPhase
    unfold Withdrawal.InPhase at hp
    rw [ho] at hp
    exact ⟨hp.trans (confirmed_iff_clean hso), h.completed w hw o ho⟩
  recorded := by
    rw [h.recorded]
    exact exists_congr fun w => and_congr_right fun hw => confirmed_iff_clean (h.sound w hw)
  stands hc t hr := by
    have hk : t.Coherent ∧ t.confirmed = true := by
      refine hr.invariant (I := fun u => u.Coherent ∧ u.confirmed = true) ?_ ⟨h, hc⟩
      intro u a v ⟨hu, hf⟩ _ hs
      exact ⟨hu.step hs, (hu.frame hs).1 hf⟩
    exact hk.2
  releases a t hs := (h.frame hs).2

/-- Every withdrawal of a connection keeps to its contract. -/
theorem withdrawal_keeps_contract {budget : Semaphore Nat}
    (hrun : system.Reaches { budget := budget } s) : s.KeepsContract :=
  (hrun.invariant (I := Coherent) (fun _ _ _ h _ hs => h.step hs)
    (coherent_start budget)).keepsContract

/-- A request that is answered, with what comes after its response. -/
def answered (r : Response) (rest : List AttemptEvent) : List Action :=
  (responded r ++ rest).map fun event => .withdrawal 0 (.attempt event)

/-- One permit is idle; the first request is answered with `408` and the second with `204`. -/
theorem withdrawal_keeps_contract_after_retry :
    ∃ s, system.Reaches { budget := { permits := 1 } } s ∧
      s.withdrawals.map (·.phase) = [.completed .confirmed] ∧
      s.withdrawals.map (·.requests) = [2] ∧ s.confirmed = true ∧ s.closed = true ∧
      s.budget.permits = 1 ∧ s.KeepsContract := by
  have he : ∃ s ∈ system.exec { budget := { permits := 1 } }
      ([.credits .poll, .credits .offer, .withdraw] ++ answered { status := 408 } [] ++
        answered { status := 204, contentLengths := [[0x30]] }
          [.data (.chunk []), .data .finished, .trailers .absent] ++
        [.withdrawal 0 .proceed, .credits .dropIdle, .withdrawal 0 .proceed,
          .withdrawal 0 .proceed, .withdrawal 0 .proceed]),
      s.withdrawals.map (·.phase) = [.completed .confirmed] ∧
      s.withdrawals.map (·.requests) = [2] ∧ s.confirmed = true ∧ s.closed = true ∧
      s.budget.permits = 1 := by decide
  obtain ⟨s, hs, hp, hr, hc, hcl, hb⟩ := he
  have hre := Lts.Reaches.of_exec hs
  exact ⟨s, hre, hp, hr, hc, hcl, hb,
    withdrawal_keeps_contract hre⟩

end WithdrawingTunnel

end Runewarp.Tunnel
