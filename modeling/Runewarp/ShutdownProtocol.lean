import Runewarp.Lib.Lts
import Runewarp.Lib.Tally
import Runewarp.OrderlyShutdown

/-!
# The protocol of an orderly shutdown

`OrderlyShutdown` is shared by tasks on any thread.  Underneath the mode is a number that
`transition_to` raises in a loop of a load and a compare-exchange; the instant at which
shutdown started is in a cell that is written at most once, before the number; and who
waits for a mode is notified after it.  Every access is a step here, and calls and waiters
interleave as they will.

`OrderlyShutdown.transitionTo` is what a call is for: it takes effect at one of its steps
as that function does (`TransitionCall.Effect.takes`), and the users of `OrderlyShutdown` in
the other modules take it for one step.

`request_shutdown` of the Address controller tests the mode and then begins a Fast
shutdown, and a Graceful one may begin in between.
-/

namespace Runewarp

/-! ## The model -/

/-- What the calls and waiters of an `OrderlyShutdown` share: `OrderlyShutdownInner`, the
shutdown flag of the Address controller, and the clock. -/
structure SharedShutdown where
  state : Nat := 0
  startedAt : Option Nat := none
  /-- How often `notify_waiters` was called. -/
  notifications : Nat := 0
  gracefulShutdownDuration : Nat
  /-- `shutdown_tx`. -/
  shutdownRequested : Bool := false
  clock : Nat := 0
deriving DecidableEq

namespace SharedShutdown

/-- `mode`. -/
def mode (x : SharedShutdown) : Option ShutdownMode :=
  match x.state with
  | 1 => some .graceful
  | 2 => some .fast
  | _ => none

def gracefulDeadline (x : SharedShutdown) : Option Nat :=
  x.startedAt.map (· + x.gracefulShutdownDuration)

/-- The object that the other modules use. -/
def orderly (x : SharedShutdown) : OrderlyShutdown := ⟨x.mode, x.gracefulShutdownDuration⟩

end SharedShutdown

/-- Who begins a shutdown. -/
inductive TransitionCaller where
  /-- `begin_graceful` or `begin_fast`. -/
  | begins (mode : ShutdownMode)
  /-- `AddressControllerShutdown::begin`. -/
  | handle (mode : ShutdownMode)
  /-- `request_shutdown` of the Address controller. -/
  | request
deriving DecidableEq

def TransitionCaller.target : TransitionCaller → ShutdownMode
  | .begins mode | .handle mode => mode
  | .request => .fast

/-- The caller sets the shutdown flag afterwards. -/
def TransitionCaller.publishes : TransitionCaller → Bool
  | .begins _ => false
  | .handle _ | .request => true

/-- Where a call stands. -/
inductive TransitionPhase where
  /-- `request_shutdown` is to test the mode. -/
  | checking
  | loading
  /-- The loaded state was zero, and the clock is to be read. -/
  | stamping
  | recording (now : Nat)
  | exchanging (current : Nat)
  | notifying (current : Nat)
  /-- The flag is to be sent.  A `request_shutdown` that found a mode has no answer. -/
  | publishing (answer : Option ShutdownTransition)
  | returned (answer : Option ShutdownTransition)
  /-- An `unreachable!` was executed. -/
  | unreachable
deriving DecidableEq

structure TransitionCall where
  caller : TransitionCaller
  phase : TransitionPhase
deriving DecidableEq

/-- The answer for an exchange. -/
def transitionOf : Nat → Nat → Option ShutdownTransition
  | 0, 1 => some (.started .graceful)
  | 0, 2 => some (.started .fast)
  | 1, 2 => some .escalatedToFast
  | _, _ => none

namespace TransitionCall

def new (caller : TransitionCaller) : TransitionCall where
  caller := caller
  phase := match caller with
    | .begins _ | .handle _ => .loading
    | .request => .checking

def target (c : TransitionCall) : ShutdownMode := c.caller.target

/-- The call is over but for the flag. -/
def finish (c : TransitionCall) (answer : Option ShutdownTransition) : TransitionPhase :=
  if c.caller.publishes then .publishing answer else .returned answer

/-- `match` with an `unreachable!` arm. -/
def finishWith (c : TransitionCall) : Option ShutdownTransition → TransitionPhase
  | some answer => c.finish (some answer)
  | none => .unreachable

/-- One step of a call. -/
def step (x : SharedShutdown) (c : TransitionCall) : Option (SharedShutdown × TransitionPhase) :=
  match c.phase with
  | .checking => some (x, if x.mode.isNone then .loading else c.finish none)
  | .loading =>
    if c.target.state ≤ x.state then some (x, c.finishWith (x.mode.map .alreadyStarted))
    else some (x, if x.state = 0 then .stamping else .exchanging x.state)
  | .stamping => some (x, .recording x.clock)
  | .recording now => some ({ x with startedAt := x.startedAt.or (some now) }, .exchanging 0)
  | .exchanging current =>
    if x.state = current then some ({ x with state := c.target.state }, .notifying current)
    else some (x, .loading)
  | .notifying current =>
    some ({ x with notifications := x.notifications + 1 },
      c.finishWith (transitionOf current c.target.state))
  | .publishing answer => some ({ x with shutdownRequested := true }, .returned answer)
  | .returned _ | .unreachable => none

end TransitionCall

/-- Where `wait_started` or `wait_for_fast` stands, with how many notifications its
`notified` future has seen. -/
inductive WaiterPhase where
  | creating
  | checking (seen : Nat)
  | awaiting (seen : Nat)
  | returned (mode : ShutdownMode)
  | dropped
deriving DecidableEq

structure ShutdownWaiter where
  /-- `wait_for_fast`. -/
  forFast : Bool
  phase : WaiterPhase := .creating
deriving DecidableEq

namespace ShutdownWaiter

/-- The mode that ends the wait. -/
def finds (w : ShutdownWaiter) (mode : Option ShutdownMode) : Option ShutdownMode :=
  if w.forFast then mode.filter (· == .fast) else mode

/-- One step of a waiter. -/
def step (x : SharedShutdown) (w : ShutdownWaiter) : Option WaiterPhase :=
  match w.phase with
  | .creating => some (.checking x.notifications)
  | .checking seen =>
    match w.finds x.mode with
    | some mode => some (.returned mode)
    | none => some (.awaiting seen)
  | .awaiting seen => if seen = x.notifications then none else some .creating
  | .returned _ | .dropped => none

end ShutdownWaiter

structure ShutdownProtocol where
  shared : SharedShutdown
  calls : List TransitionCall := []
  waiters : List ShutdownWaiter := []
deriving DecidableEq

namespace ShutdownProtocol

def start (gracefulShutdownDuration : Nat) : ShutdownProtocol where
  shared := { gracefulShutdownDuration }

inductive Action where
  | call (caller : TransitionCaller)
  | callStep (i : Nat)
  | wait (forFast : Bool)
  | waiterStep (i : Nat)
  /-- The future of a waiter is dropped. -/
  | dropWaiter (i : Nat)
  /-- Time passes. -/
  | tick
deriving DecidableEq

def step (s : ShutdownProtocol) : Action → Option ShutdownProtocol
  | .call caller => some { s with calls := s.calls ++ [.new caller] }
  | .callStep i =>
    match s.calls[i]? with
    | none => none
    | some c =>
      (c.step s.shared).map fun (shared, phase) =>
        { s with shared, calls := s.calls.set i { c with phase } }
  | .wait forFast => some { s with waiters := s.waiters ++ [{ forFast }] }
  | .waiterStep i =>
    match s.waiters[i]? with
    | none => none
    | some w => (w.step s.shared).map fun phase =>
      { s with waiters := s.waiters.set i { w with phase } }
  | .dropWaiter i =>
    match s.waiters[i]? with
    | none => none
    | some w => some { s with waiters := s.waiters.set i { w with phase := .dropped } }
  | .tick => some { s with shared := { s.shared with clock := s.shared.clock + 1 } }

def system : Lts ShutdownProtocol Action := ⟨step⟩

end ShutdownProtocol

/-! ## What a call does to what is shared -/

namespace SharedShutdown

/-- The state is that of a mode, and a mode is there only after the start was recorded. -/
structure Sound (x : SharedShutdown) : Prop where
  state : x.state = (x.mode.map ShutdownMode.state).getD 0
  started : x.state ≠ 0 → x.startedAt ≠ none

/-- How what is shared may change. -/
structure Later (x x' : SharedShutdown) : Prop where
  state : x.state ≤ x'.state
  startedAt : ∀ instant, x.startedAt = some instant → x'.startedAt = some instant
  notifications : x.notifications ≤ x'.notifications
  duration : x'.gracefulShutdownDuration = x.gracefulShutdownDuration

variable {x x' x'' : SharedShutdown}

theorem Later.refl (x : SharedShutdown) : Later x x :=
  ⟨le_rfl, fun _ h => h, le_rfl, rfl⟩

theorem Later.trans (h : Later x x') (h' : Later x' x'') : Later x x'' where
  state := h.state.trans h'.state
  startedAt := fun instant hi => h'.startedAt instant (h.startedAt instant hi)
  notifications := h.notifications.trans h'.notifications
  duration := h'.duration.trans h.duration

theorem Later.startedAt_ne_none (h : Later x x') (hx : x.startedAt ≠ none) :
    x'.startedAt ≠ none := by
  obtain ⟨instant, hi⟩ := Option.ne_none_iff_exists'.mp hx
  simp [h.startedAt instant hi]

theorem Sound.mode_eq_none_iff (h : x.Sound) : x.mode = none ↔ x.state = 0 := by
  have hs := h.state
  cases hm : x.mode with
  | none => simp [hm] at hs; simp [hs]
  | some m => cases m <;> simp [hm, ShutdownMode.state] at hs <;> simp [hs]

theorem Sound.state_of_mode (h : x.Sound) {m : ShutdownMode} (hm : x.mode = some m) :
    x.state = m.state := by
  rw [h.state, hm]
  rfl

theorem mode_of_state {m : ShutdownMode} (h : x.state = m.state) : x.mode = some m := by
  cases m <;> simp [mode, h, ShutdownMode.state]

end SharedShutdown

theorem ShutdownMode.state_pos (m : ShutdownMode) : 0 < m.state := by
  cases m <;> decide

namespace TransitionCall

variable {x x' : SharedShutdown} {c : TransitionCall} {p : TransitionPhase}

/-- What is known of a call at the point where it stands. -/
def Sound (x : SharedShutdown) (c : TransitionCall) : Prop :=
  match c.phase with
  | .checking => c.caller = .request
  | .loading | .stamping | .recording _ => True
  | .exchanging current => current < c.target.state ∧ (current = 0 → x.startedAt ≠ none)
  | .notifying current => current < c.target.state ∧ x.state ≠ 0
  | .publishing _ | .returned _ => x.state ≠ 0
  | .unreachable => False

/-- The answer of a call that has taken effect. -/
def answer (c : TransitionCall) : Option ShutdownTransition :=
  match c.phase with
  | .notifying current => transitionOf current c.target.state
  | .publishing answer | .returned answer => answer
  | .checking | .loading | .stamping | .recording _ | .exchanging _ | .unreachable => none

def isNotifying (c : TransitionCall) : Bool := c.phase matches .notifying _

/-- The steps of a call. -/
inductive Effect (x : SharedShutdown) (c : TransitionCall) :
    SharedShutdown → TransitionPhase → Prop where
  | skips : c.phase = .checking → x.state ≠ 0 → Effect x c x (c.finish none)
  | checks : c.phase = .checking → x.state = 0 → Effect x c x .loading
  | finds : c.phase = .loading → x.mode = some m → c.target.state ≤ m.state →
      Effect x c x (c.finish (some (.alreadyStarted m)))
  | loadsZero : c.phase = .loading → x.state = 0 → Effect x c x .stamping
  | loads : c.phase = .loading → x.state < c.target.state → x.state ≠ 0 →
      Effect x c x (.exchanging x.state)
  | stamps : c.phase = .stamping → Effect x c x (.recording x.clock)
  | records : c.phase = .recording now →
      Effect x c { x with startedAt := x.startedAt.or (some now) } (.exchanging 0)
  | exchanges : c.phase = .exchanging x.state →
      Effect x c { x with state := c.target.state } (.notifying x.state)
  | loses : c.phase = .exchanging current → Effect x c x .loading
  | notifies : c.phase = .notifying current → transitionOf current c.target.state = some t →
      Effect x c { x with notifications := x.notifications + 1 } (c.finish (some t))
  | publishes : c.phase = .publishing a →
      Effect x c { x with shutdownRequested := true } (.returned a)

theorem transitionOf_isSome {current : Nat} {m : ShutdownMode} (h : current < m.state) :
    ∃ t, transitionOf current m.state = some t := by
  cases m with
  | graceful =>
    obtain rfl : current = 0 := by simpa [ShutdownMode.state] using h
    exact ⟨_, rfl⟩
  | fast =>
    obtain rfl | rfl : current = 0 ∨ current = 1 := by
      have h : current < 2 := h
      omega
    · exact ⟨_, rfl⟩
    · exact ⟨_, rfl⟩

theorem effect_of_step (hx : x.Sound) (hc : c.Sound x) (h : c.step x = some (x', p)) :
    Effect x c x' p := by
  unfold step at h
  split at h
  next hp =>
    cases h
    split
    next hm => exact .checks hp (hx.mode_eq_none_iff.mp (by simpa using hm))
    next hm => exact .skips hp fun hz => hm (by simp [hx.mode_eq_none_iff.mpr hz])
  next hp =>
    split at h
    next hle =>
      cases h
      cases hm : x.mode with
      | none =>
        have hz := hx.mode_eq_none_iff.mp hm
        have hpo := c.target.state_pos
        omega
      | some m => exact .finds hp hm (hx.state_of_mode hm ▸ hle)
    next hlt =>
      cases h
      split
      next hz => exact .loadsZero hp hz
      next hne => exact .loads hp (by omega) hne
  next hp =>
    cases h
    exact .stamps hp
  next hp =>
    cases h
    exact .records hp
  next hp =>
    split at h
    next heq =>
      cases h
      subst heq
      exact .exchanges hp
    next =>
      cases h
      exact .loses hp
  next hp =>
    cases h
    simp only [Sound, hp] at hc
    obtain ⟨t, ht⟩ := transitionOf_isSome hc.1
    rw [ht]
    exact .notifies hp ht
  next hp =>
    cases h
    exact .publishes hp
  next => cases h
  next => cases h

theorem sound_finish {answer : Option ShutdownTransition} (h : x.state ≠ 0) :
    Sound x { c with phase := c.finish answer } := by
  unfold finish
  split <;> exact h

theorem answer_finish (answer : Option ShutdownTransition) :
    TransitionCall.answer { c with phase := c.finish answer } = answer := by
  unfold finish
  split <;> rfl

theorem Sound.later (h : c.Sound x) (hl : x.Later x') : c.Sound x' := by
  have hne : x.state ≠ 0 → x'.state ≠ 0 := by
    have hle := hl.state
    omega
  unfold Sound at h ⊢
  split at h
  · exact h
  · exact h
  · exact h
  · exact h
  · exact ⟨h.1, fun hz => hl.startedAt_ne_none (h.2 hz)⟩
  · exact ⟨h.1, hne h.2⟩
  · exact hne h
  · exact hne h
  · exact h

theorem Effect.later (h : Effect x c x' p) (hc : c.Sound x) : x.Later x' := by
  cases h with
  | records => exact ⟨le_rfl, fun i hi => by simp [hi], le_rfl, rfl⟩
  | exchanges hp =>
    simp only [Sound, hp] at hc
    exact ⟨Nat.le_of_lt hc.1, fun _ h => h, le_rfl, rfl⟩
  | notifies => exact ⟨le_rfl, fun _ h => h, Nat.le_succ _, rfl⟩
  | publishes => exact ⟨le_rfl, fun _ h => h, le_rfl, rfl⟩
  | _ => exact .refl x

theorem Effect.sharedSound (h : Effect x c x' p) (hx : x.Sound) (hc : c.Sound x) : x'.Sound := by
  cases h with
  | records => exact ⟨hx.state, fun _ => by simp⟩
  | exchanges hp =>
    simp only [Sound, hp] at hc
    refine ⟨?_, fun _ => ?_⟩
    · rw [SharedShutdown.mode_of_state (m := c.target) rfl]
      rfl
    · by_cases hz : x.state = 0
      · exact hc.2 hz
      · exact hx.started hz
  | notifies => exact ⟨hx.state, hx.started⟩
  | publishes => exact ⟨hx.state, hx.started⟩
  | _ => exact hx

theorem Effect.sound (h : Effect x c x' p) (hx : x.Sound) (hc : c.Sound x) :
    Sound x' { c with phase := p } := by
  cases h with
  | skips _ hne => exact sound_finish hne
  | finds _ hm =>
    refine sound_finish ?_
    rw [hx.state_of_mode hm]
    exact Nat.ne_of_gt (ShutdownMode.state_pos _)
  | loads _ hlt hne => exact ⟨hlt, fun hz => (hne hz).elim⟩
  | records => exact ⟨c.target.state_pos, fun _ => by simp⟩
  | exchanges hp =>
    simp only [Sound, hp] at hc
    exact ⟨hc.1, Nat.ne_of_gt c.target.state_pos⟩
  | notifies hp =>
    simp only [Sound, hp] at hc
    exact sound_finish hc.2
  | publishes hp =>
    simp only [Sound, hp] at hc
    exact hc
  | _ => trivial

theorem transitionTo_of_lt {m : ShutdownMode} {t : ShutdownTransition} (hx : x.Sound)
    (hlt : x.state < m.state) (ht : transitionOf x.state m.state = some t) :
    x.orderly.transitionTo m = (SharedShutdown.orderly { x with state := m.state }, t) := by
  have hm : SharedShutdown.mode { x with state := m.state } = some m :=
    SharedShutdown.mode_of_state rfl
  cases hx' : x.mode with
  | none =>
    rw [hx.mode_eq_none_iff.mp hx'] at ht
    cases m <;> cases ht <;>
      simp [OrderlyShutdown.transitionTo, SharedShutdown.orderly, hx', hm]
  | some current =>
    rw [hx.state_of_mode hx'] at ht hlt
    cases current <;> cases m <;> simp [ShutdownMode.state] at hlt
    cases ht
    simp only [OrderlyShutdown.transitionTo, SharedShutdown.orderly, hx', hm]
    rfl

/-- A call takes effect as `transitionTo` does, and all its other steps leave the mode and
its answer alone. -/
theorem Effect.takes (h : Effect x c x' p) (hx : x.Sound) (hc : c.Sound x) :
    (x'.orderly = x.orderly ∧ answer { c with phase := p } = c.answer) ∨
    ∃ t, c.answer = none ∧ x.orderly.transitionTo c.target = (x'.orderly, t) ∧
      answer { c with phase := p } = some t := by
  cases h with
  | skips hp =>
    refine .inl ⟨rfl, ?_⟩
    rw [answer_finish, answer, hp]
  | checks hp | loadsZero hp | loads hp | stamps hp | records hp | loses hp =>
    exact .inl ⟨rfl, by simp [answer, hp]⟩
  | @finds m hp hm hle =>
    refine .inr ⟨.alreadyStarted m, by simp [answer, hp], ?_, answer_finish _⟩
    simp [OrderlyShutdown.transitionTo, SharedShutdown.orderly, hm, hle]
  | exchanges hp =>
    simp only [Sound, hp] at hc
    obtain ⟨t, ht⟩ := transitionOf_isSome hc.1
    exact .inr ⟨t, by simp [answer, hp], transitionTo_of_lt hx hc.1 ht, ht⟩
  | notifies hp ht =>
    refine .inl ⟨rfl, ?_⟩
    rw [answer_finish, answer, hp]
    exact ht.symm
  | publishes hp => exact .inl ⟨rfl, by simp [answer, hp]⟩

/-- A call notifies after it has changed the mode. -/
theorem Effect.notifies_or (h : Effect x c x' p) :
    x'.notifications = x.notifications + 1 ∨ x'.notifications = x.notifications ∧
      (isNotifying { c with phase := p } = true ∨ x'.mode = x.mode ∧ c.isNotifying = false) := by
  cases h with
  | notifies => exact .inl rfl
  | exchanges => exact .inr ⟨rfl, .inl rfl⟩
  | skips hp | checks hp | finds hp | loadsZero hp | loads hp | stamps hp | records hp | loses hp
  | publishes hp => exact .inr ⟨rfl, .inr ⟨rfl, by simp [isNotifying, hp]⟩⟩

/-! ## The answers -/

/-- The call was answered that it started the shutdown. -/
def started (c : TransitionCall) : Nat := if c.answer matches some (.started _) then 1 else 0

/-- The call was answered that it escalated the shutdown. -/
def escalated (c : TransitionCall) : Nat := if c.answer = some .escalatedToFast then 1 else 0

end TransitionCall

namespace OrderlyShutdown

variable {o o' : OrderlyShutdown} {m : ShutdownMode} {t : ShutdownTransition}

theorem transitionTo_cases (h : o.transitionTo m = (o', t)) :
    (o.mode = none ∧ o'.mode = some m ∧ t = .started m) ∨
    (o.mode = some .graceful ∧ m = .fast ∧ o'.mode = some .fast ∧ t = .escalatedToFast) ∨
    (∃ current, o.mode = some current ∧ o' = o ∧ t = .alreadyStarted current) := by
  unfold transitionTo at h
  split at h
  next hn =>
    cases h
    exact .inl ⟨hn, rfl, rfl⟩
  next current hs =>
    split at h
    next =>
      cases h
      exact .inr (.inr ⟨current, hs, rfl, rfl⟩)
    next hlt =>
      cases h
      cases current <;> cases m <;> simp [ShutdownMode.state] at hlt
      exact .inr (.inl ⟨hs, rfl, rfl, rfl⟩)

end OrderlyShutdown

namespace ShutdownProtocol

open TransitionCall

variable {s t : ShutdownProtocol} {action : Action}

/-- One call has started the shutdown that there is, and one at most has escalated it. -/
structure Answered (o : OrderlyShutdown) (calls : List TransitionCall) : Prop where
  started : tally TransitionCall.started calls = if o.mode = none then 0 else 1
  escalated : tally TransitionCall.escalated calls ≤ if o.mode = some .fast then 1 else 0

variable {o : OrderlyShutdown} {calls : List TransitionCall} {i : Nat} {c : TransitionCall}

theorem Answered.takes {o' : OrderlyShutdown} {c' : TransitionCall} {answer : ShutdownTransition}
    (h : Answered o calls) (hc : calls[i]? = some c) (hb : c.answer = none)
    (ht : o.transitionTo c.target = (o', answer)) (ha : c'.answer = some answer) :
    Answered o' (calls.set i c') := by
  obtain ⟨hst, hes⟩ := h
  have hs := (tally_set TransitionCall.started c' hc).2
  have he := (tally_set TransitionCall.escalated c' hc).2
  have hs₀ : c.started = 0 := by simp [TransitionCall.started, hb]
  have he₀ : c.escalated = 0 := by simp [TransitionCall.escalated, hb]
  rcases OrderlyShutdown.transitionTo_cases ht with
    ⟨hn, hm, rfl⟩ | ⟨hg, -, hm, rfl⟩ | ⟨current, hso, rfl, rfl⟩
  · have hs₁ : c'.started = 1 := by simp [TransitionCall.started, ha]
    have he₁ : c'.escalated = 0 := by simp [TransitionCall.escalated, ha]
    simp only [hn, if_true, reduceCtorEq, if_false] at hst hes
    exact ⟨by rw [hm]; simp; omega, by omega⟩
  · have hs₁ : c'.started = 0 := by simp [TransitionCall.started, ha]
    have he₁ : c'.escalated = 1 := by simp [TransitionCall.escalated, ha]
    simp only [hg, reduceCtorEq, if_false, Option.some.injEq] at hst hes
    exact ⟨by rw [hm]; simp; omega, by rw [hm]; simp; omega⟩
  · have hs₁ : c'.started = 0 := by simp [TransitionCall.started, ha]
    have he₁ : c'.escalated = 0 := by simp [TransitionCall.escalated, ha]
    exact ⟨by omega, by omega⟩

/-- What holds of a waiter: a mode that it awaits is there only if its future is ready or
a call is about to notify. -/
structure Covered (s : ShutdownProtocol) (w : ShutdownWaiter) : Prop where
  checking : ∀ seen, w.phase = .checking seen → seen ≤ s.shared.notifications
  awaiting : ∀ seen, w.phase = .awaiting seen → seen ≤ s.shared.notifications
  notified : ∀ seen, w.phase = .awaiting seen → w.finds s.shared.mode ≠ none →
    seen < s.shared.notifications ∨ ∃ c ∈ s.calls, c.isNotifying = true

structure Sound (s : ShutdownProtocol) : Prop where
  shared : s.shared.Sound
  calls : ∀ c ∈ s.calls, c.Sound s.shared
  answered : Answered s.shared.orderly s.calls
  waiters : ∀ w ∈ s.waiters, s.Covered w

theorem sound_start (duration : Nat) : (start duration).Sound where
  shared := ⟨rfl, fun h => (h rfl).elim⟩
  calls := by simp [start]
  answered := ⟨rfl, Nat.zero_le _⟩
  waiters := by simp [start]

theorem Answered.keeps {c' : TransitionCall} (h : Answered o calls) (hc : calls[i]? = some c)
    (hsa : c'.answer = c.answer) : Answered o (calls.set i c') := by
  have hs := (tally_set TransitionCall.started c' hc).2
  have he := (tally_set TransitionCall.escalated c' hc).2
  have hs' : c'.started = c.started := by simp [TransitionCall.started, hsa]
  have he' : c'.escalated = c.escalated := by simp [TransitionCall.escalated, hsa]
  obtain ⟨hst, hes⟩ := h
  exact ⟨by omega, by omega⟩

theorem Covered.effect {x : SharedShutdown} {p : TransitionPhase} {w : ShutdownWaiter}
    (h : s.Covered w) (hc : s.calls[i]? = some c) (he : Effect s.shared c x p) :
    Covered { s with shared := x, calls := s.calls.set i { c with phase := p } } w := by
  obtain ⟨hch, ha, hno⟩ := h
  rcases he.notifies_or with hmo | ⟨hs, hn | ⟨hm, hnt⟩⟩
  · refine ⟨fun seen hp => ?_, fun seen hp => ?_, fun seen hp _ => .inl ?_⟩
    · have hle := hch seen hp
      dsimp only
      omega
    · have hle := ha seen hp
      dsimp only
      omega
    · have hle := ha seen hp
      dsimp only
      omega
  · refine ⟨fun seen hp => hs ▸ hch seen hp, fun seen hp => hs ▸ ha seen hp,
      fun seen hp _ => .inr ⟨_, List.mem_of_getElem? (i := i) ?_, hn⟩⟩
    have hi : i < s.calls.length := (List.getElem?_eq_some_iff.mp hc).1
    simp [hi]
  · refine ⟨fun seen hp => hs ▸ hch seen hp, fun seen hp => hs ▸ ha seen hp,
      fun seen hp hf => ?_⟩
    rcases hno seen hp (hm ▸ hf) with hlt | ho
    · exact .inl (hs ▸ hlt)
    · refine .inr (exists_mem_set hc (fun hn => ?_) ho)
      rw [hnt] at hn
      cases hn

theorem Sound.callStep {x : SharedShutdown} {p : TransitionPhase} (h : s.Sound)
    (hc : s.calls[i]? = some c) (hs : c.step s.shared = some (x, p)) :
    Sound { s with shared := x, calls := s.calls.set i { c with phase := p } } := by
  have hso := h.calls c (List.mem_of_getElem? hc)
  have he := effect_of_step h.shared hso hs
  have hl := he.later hso
  refine ⟨he.sharedSound h.shared hso, ?_, ?_,
    fun w hw => (h.waiters w hw).effect hc he⟩
  · exact forall_mem_set (fun d hd => (h.calls d hd).later hl) (he.sound h.shared hso)
  · rcases he.takes h.shared hso with ⟨hsa, ha⟩ | ⟨answer, hn, ht, ha⟩
    · rw [hsa]
      exact h.answered.keeps hc ha
    · exact h.answered.takes hc hn ht ha

theorem Covered.waiterStep {w : ShutdownWaiter} {p : WaiterPhase} (h : s.Covered w)
    (hs : w.step s.shared = some p) : s.Covered { w with phase := p } := by
  obtain ⟨hc, ha, hno⟩ := h
  unfold ShutdownWaiter.step at hs
  split at hs
  next =>
    cases hs
    exact ⟨fun seen hp => by cases hp; exact le_rfl, by simp, by simp⟩
  next seen hp =>
    split at hs
    next =>
      cases hs
      exact ⟨by simp, by simp, by simp⟩
    next hnn =>
      -- The mode is not there, so nothing is owed to the waiter.
      cases hs
      refine ⟨by simp, fun n hn => ?_, fun n _ hf => (hf hnn).elim⟩
      cases hn
      exact hc seen hp
  next =>
    split at hs
    next => cases hs
    next =>
      cases hs
      exact ⟨by simp, by simp, by simp⟩
  next => cases hs
  next => cases hs

/-- What a step does. -/
inductive Move (s : ShutdownProtocol) : Action → ShutdownProtocol → Prop where
  | calls (caller : TransitionCaller) :
      Move s (.call caller) { s with calls := s.calls ++ [.new caller] }
  | callSteps {i : Nat} {c : TransitionCall} {x : SharedShutdown} {p : TransitionPhase} :
      s.calls[i]? = some c → c.step s.shared = some (x, p) →
      Move s (.callStep i) { s with shared := x, calls := s.calls.set i { c with phase := p } }
  | waits (forFast : Bool) : Move s (.wait forFast) { s with waiters := s.waiters ++ [{ forFast }] }
  | waiterSteps {i : Nat} {w : ShutdownWaiter} {p : WaiterPhase} :
      s.waiters[i]? = some w → w.step s.shared = some p →
      Move s (.waiterStep i) { s with waiters := s.waiters.set i { w with phase := p } }
  | drops {i : Nat} {w : ShutdownWaiter} : s.waiters[i]? = some w →
      Move s (.dropWaiter i) { s with waiters := s.waiters.set i { w with phase := .dropped } }
  | ticks : Move s .tick { s with shared := { s.shared with clock := s.shared.clock + 1 } }

theorem move_of_step (hs : system.step s action = some t) : s.Move action t := by
  cases action with
  | call caller =>
    cases hs
    exact .calls caller
  | callStep i =>
    simp only [system, ShutdownProtocol.step] at hs
    split at hs
    next => cases hs
    next c hc =>
      obtain ⟨⟨x, p⟩, hst, rfl⟩ := Option.map_eq_some_iff.mp hs
      exact .callSteps hc hst
  | wait forFast =>
    cases hs
    exact .waits forFast
  | waiterStep i =>
    simp only [system, ShutdownProtocol.step] at hs
    split at hs
    next => cases hs
    next w hw =>
      obtain ⟨p, hst, rfl⟩ := Option.map_eq_some_iff.mp hs
      exact .waiterSteps hw hst
  | dropWaiter i =>
    simp only [system, ShutdownProtocol.step] at hs
    split at hs
    next => cases hs
    next w hw =>
      cases hs
      exact .drops hw
  | tick =>
    cases hs
    exact .ticks

theorem sound_new (caller : TransitionCaller) (x : SharedShutdown) :
    (TransitionCall.new caller).Sound x := by
  cases caller with
  | request => rfl
  | _ => trivial

theorem answer_new (caller : TransitionCaller) : (TransitionCall.new caller).answer = none := by
  cases caller <;> rfl

theorem Answered.call (h : Answered o calls) (caller : TransitionCaller) :
    Answered o (calls ++ [.new caller]) := by
  have hs : (TransitionCall.new caller).started = 0 := by
    simp [TransitionCall.started, answer_new]
  have he : (TransitionCall.new caller).escalated = 0 := by
    simp [TransitionCall.escalated, answer_new]
  exact ⟨by rw [tally_concat, hs]; exact h.started, by rw [tally_concat, he]; exact h.escalated⟩

theorem Sound.step (h : s.Sound) (hs : system.step s action = some t) : t.Sound := by
  cases move_of_step hs with
  | calls caller =>
    refine { h with
      calls := forall_mem_concat h.calls (sound_new caller _)
      answered := h.answered.call caller
      waiters := fun w hw => ?_ }
    obtain ⟨hch, ha, hno⟩ := h.waiters w hw
    refine ⟨hch, ha, fun seen hp hf => ?_⟩
    rcases hno seen hp hf with hlt | ⟨c, hc, hn⟩
    · exact .inl hlt
    · exact .inr ⟨c, List.mem_append_left _ hc, hn⟩
  | callSteps hc hst => exact h.callStep hc hst
  | waits forFast =>
    have hne : s.Covered { forFast } := ⟨by simp, by simp, by simp⟩
    exact { h with
      waiters := forall_mem_concat (fun w hw => { h.waiters w hw with }) { hne with } }
  | waiterSteps hw hst =>
    have hne := (h.waiters _ (List.mem_of_getElem? hw)).waiterStep hst
    exact { h with
      waiters := forall_mem_set (fun w hw => { h.waiters w hw with }) { hne with } }
  | @drops i w hw =>
    have hne : s.Covered { w with phase := .dropped } := ⟨by simp, by simp, by simp⟩
    exact { h with
      waiters := forall_mem_set (fun w hw => { h.waiters w hw with }) { hne with } }
  | ticks =>
    exact ⟨⟨h.shared.state, h.shared.started⟩, h.calls, h.answered,
      fun w hw => { h.waiters w hw with }⟩

/-! ## Requests of the Address controller -/

end ShutdownProtocol

namespace TransitionCall

variable {x x' : SharedShutdown} {c : TransitionCall} {p : TransitionPhase}

/-- A `request_shutdown` that has found no mode and has not taken effect. -/
def isDeciding (c : TransitionCall) : Bool :=
  match c.caller, c.phase with
  | .request, .loading | .request, .stamping | .request, .recording _
  | .request, .exchanging _ => true
  | _, _ => false

/-- The call is no request that finds Graceful where it has found no mode. -/
structure Unescalating (x : SharedShutdown) (c : TransitionCall) : Prop where
  deciding : c.isDeciding = true → x.state ≠ 1
  exchanging : ∀ current, c.caller = .request → c.phase = .exchanging current → current ≠ 1
  answer : c.caller = .request → c.answer ≠ some .escalatedToFast

theorem unescalating_of_ne (h : c.caller ≠ .request) : c.Unescalating x where
  deciding hd := by
    unfold isDeciding at hd
    split at hd <;> simp_all
  exchanging _ hr := (h hr).elim
  answer hr := (h hr).elim

/-- The phase is not one in which the call decides. -/
theorem unescalating_of_phase (hph : ∀ caller, isDeciding ⟨caller, p⟩ = false)
    (h : TransitionCall.answer { c with phase := p } ≠ some .escalatedToFast) :
    Unescalating x { c with phase := p } where
  deciding hd := by
    rw [hph c.caller] at hd
    cases hd
  exchanging current hr hp := by
    have hn := hph .request
    rw [show p = .exchanging current from hp] at hn
    cases hn
  answer _ := h

theorem isDeciding_finish (c : TransitionCall) (answer : Option ShutdownTransition)
    (caller : TransitionCaller) : isDeciding ⟨caller, c.finish answer⟩ = false := by
  unfold finish
  split <;> simp [isDeciding]

theorem Unescalating.effect (h : c.Unescalating x) (hc : c.Sound x) (hef : Effect x c x' p) :
    Unescalating x' { c with phase := p } := by
  by_cases hr : c.caller = .request
  swap
  · exact unescalating_of_ne hr
  obtain ⟨hd, he, ha⟩ := h
  have hf : c.target = .fast := by rw [target, hr]; rfl
  cases hef with
  | skips =>
    refine unescalating_of_phase (isDeciding_finish c _) ?_
    rw [answer_finish]
    simp
  | finds =>
    refine unescalating_of_phase (isDeciding_finish c _) ?_
    rw [answer_finish]
    simp
  | loads hp =>
    have hne : x.state ≠ 1 := hd (by simp [isDeciding, hr, hp])
    exact ⟨fun _ => hne, fun _ _ hp => (by cases hp; exact hne),
      fun _ => by simp [TransitionCall.answer]⟩
  | stamps hp | loses hp =>
    have hne : x.state ≠ 1 := hd (by simp [isDeciding, hr, hp])
    exact ⟨fun _ => hne, fun _ _ hp => (by cases hp), fun _ => by simp [TransitionCall.answer]⟩
  | records hp =>
    have hne : x.state ≠ 1 := hd (by simp [isDeciding, hr, hp])
    exact ⟨fun _ => hne, fun _ _ hp => (by cases hp; decide),
      fun _ => by simp [TransitionCall.answer]⟩
  | exchanges hp =>
    have hne := he _ hr hp
    simp only [Sound, hp, hf] at hc
    have hz : x.state = 0 := by
      have hlt : x.state < 2 := hc.1
      omega
    refine unescalating_of_phase (fun _ => by simp [isDeciding]) ?_
    rw [TransitionCall.answer, hz]
    simp [target, hr, TransitionCaller.target, ShutdownMode.state, transitionOf]
  | notifies hp ht =>
    refine unescalating_of_phase (isDeciding_finish c _) ?_
    have hb := ha hr
    rw [TransitionCall.answer, hp] at hb
    rwa [answer_finish, ← ht]
  | publishes hp =>
    have hb := ha hr
    rw [TransitionCall.answer, hp] at hb
    exact unescalating_of_phase (fun _ => by simp [isDeciding]) hb
  | _ =>
    exact ⟨fun _ => by omega, fun _ _ hp => (by cases hp),
      fun _ => by simp [TransitionCall.answer]⟩

end TransitionCall

namespace ShutdownProtocol

open TransitionCall

variable {s t : ShutdownProtocol} {action : Action}

/-- The action is the exchange that begins a Graceful shutdown. -/
def beginsGraceful (s : ShutdownProtocol) : Action → Bool
  | .callStep i => (s.calls[i]?).any fun c =>
    c.target = .graceful && c.phase = .exchanging s.shared.state
  | .call _ | .wait _ | .waiterStep _ | .dropWaiter _ | .tick => false

/-- No Graceful shutdown begins while a `request_shutdown` that has found no mode has not
taken effect. -/
def GracefulApart (s : ShutdownProtocol) (a : Action) : Prop :=
  s.beginsGraceful a = true → ∀ c ∈ s.calls, c.isDeciding = false

instance (s : ShutdownProtocol) (a : Action) : Decidable (s.GracefulApart a) :=
  inferInstanceAs (Decidable (_ → _))

variable {c : TransitionCall}

theorem unescalating_other {i : Nat} {d : TransitionCall} {x : SharedShutdown} {p : TransitionPhase}
    (h : d.Unescalating s.shared) (hc : s.calls[i]? = some c) (hok : s.GracefulApart (.callStep i))
    (hd : d ∈ s.calls) (hef : Effect s.shared c x p) : d.Unescalating x := by
  obtain ⟨hde, he, ha⟩ := h
  refine ⟨fun hdc => ?_, he, ha⟩
  cases hef with
  | exchanges hp =>
    cases ht : c.target with
    | fast => simp [ShutdownMode.state]
    | graceful =>
      have hn := hok (by simp [beginsGraceful, hc, ht, hp]) d hd
      rw [hn] at hdc
      cases hdc
  | _ => exact hde hdc

theorem unescalating_new (caller : TransitionCaller) (x : SharedShutdown) :
    (TransitionCall.new caller).Unescalating x := by
  cases caller with
  | request =>
    exact ⟨fun hd => (by cases hd), fun _ _ hp => (by cases hp), fun _ => by simp [answer_new]⟩
  | _ => exact unescalating_of_ne (by simp [TransitionCall.new])

theorem unescalating_step (hso : s.Sound) (h : ∀ c ∈ s.calls, c.Unescalating s.shared)
    (hok : s.GracefulApart action) (hs : system.step s action = some t) :
    ∀ c ∈ t.calls, c.Unescalating t.shared := by
  cases move_of_step hs with
  | calls caller => exact forall_mem_concat h (unescalating_new caller _)
  | callSteps hc hst =>
    have hm := List.mem_of_getElem? hc
    have he := effect_of_step hso.shared (hso.calls _ hm) hst
    refine forall_mem_set (fun d hd => unescalating_other (h d hd) hc hok hd he) ?_
    exact (h _ hm).effect (hso.calls _ hm) he
  | ticks => exact fun c hc => { h c hc with }
  | _ => exact h

/-! ## The protocol -/

theorem later_of_step (h : s.Sound) (hs : system.step s action = some t) :
    s.shared.Later t.shared := by
  cases move_of_step hs with
  | callSteps hc hst =>
    have hso := h.calls _ (List.mem_of_getElem? hc)
    exact (effect_of_step h.shared hso hst).later hso
  | ticks => exact ⟨le_rfl, fun _ h => h, le_rfl, rfl⟩
  | _ => exact .refl _

theorem later_of_reaches (h : s.Sound) (hr : system.Reaches s t) :
    t.Sound ∧ s.shared.Later t.shared := by
  refine hr.invariant (I := fun t => t.Sound ∧ s.shared.Later t.shared) ?_ ⟨h, .refl _⟩
  rintro t a u ⟨hso, hl⟩ - hs
  exact ⟨hso.step hs, hl.trans (later_of_step hso hs)⟩

/-- The call has returned with such an answer. -/
def hasReturned (c : TransitionCall) (accepts : ShutdownTransition → Bool) : Bool :=
  match c.phase with
  | .returned answer => answer.any accepts
  | _ => false

/-- The answer says that the call started the shutdown. -/
def isStarted : ShutdownTransition → Bool
  | .started _ => true
  | .escalatedToFast | .alreadyStarted _ => false

/-- What an `OrderlyShutdown` keeps to. -/
structure KeepsProtocol (s : ShutdownProtocol) : Prop where
  /-- From no mode to any, and from Graceful to Fast. -/
  moves : ∀ t, system.Reaches s t → t.shared.mode = s.shared.mode ∨ s.shared.mode = none ∨
    s.shared.mode = some .graceful ∧ t.shared.mode = some .fast
  started : s.calls.countP (hasReturned · isStarted) ≤ 1
  /-- Once all calls have returned, one of them has started the shutdown. -/
  startedOnce : s.calls ≠ [] → (∀ c ∈ s.calls, ∃ answer, c.phase = .returned answer) →
    s.calls.countP (hasReturned · isStarted) = 1
  escalated : s.calls.countP (hasReturned · (· = .escalatedToFast)) ≤ 1
  deadline : ∀ t instant, system.Reaches s t → s.shared.gracefulDeadline = some instant →
    t.shared.gracefulDeadline = some instant
  /-- Who sees a mode sees the deadline. -/
  visible : s.shared.mode ≠ none → s.shared.gracefulDeadline ≠ none
  /-- When no call is about to notify, every waiter whose mode is there is ready. -/
  notified : (∀ c ∈ s.calls, c.isNotifying = false) → ∀ w ∈ s.waiters, ∀ seen,
    w.phase = .awaiting seen → w.finds s.shared.mode ≠ none → seen ≠ s.shared.notifications
  reachable : ∀ c ∈ s.calls, c.phase ≠ .unreachable

theorem Sound.moves (h : s.Sound) (hr : system.Reaches s t) :
    t.shared.mode = s.shared.mode ∨ s.shared.mode = none ∨
      s.shared.mode = some .graceful ∧ t.shared.mode = some .fast := by
  obtain ⟨ht, hl⟩ := later_of_reaches h hr
  have hle := hl.state
  rw [h.shared.state, ht.shared.state] at hle
  rcases hs : s.shared.mode with _ | (_ | _) <;> rcases ht : t.shared.mode with _ | (_ | _) <;>
    simp [hs, ht, ShutdownMode.state] at hle ⊢

theorem started_of_hasReturned (h : hasReturned c isStarted = true) : 0 < c.started := by
  unfold hasReturned at h
  split at h
  next answer hp =>
    cases answer with
    | none => cases h
    | some t =>
      cases t with
      | started m => simp [TransitionCall.started, TransitionCall.answer, hp]
      | _ => cases h
  next => cases h

theorem escalated_of_hasReturned (h : hasReturned c (· = .escalatedToFast) = true) :
    0 < c.escalated := by
  unfold hasReturned at h
  split at h
  next answer hp =>
    have heq : answer = some .escalatedToFast := by
      cases answer with
      | none => cases h
      | some t => simpa using h
    simp [TransitionCall.escalated, TransitionCall.answer, hp, heq]
  next => cases h

theorem Sound.startedOnce (h : s.Sound) (hne : s.calls ≠ [])
    (ha : ∀ c ∈ s.calls, ∃ answer, c.phase = .returned answer) :
    s.calls.countP (hasReturned · isStarted) = 1 := by
  obtain ⟨c, hc⟩ := List.exists_mem_of_ne_nil _ hne
  obtain ⟨answer, hp⟩ := ha c hc
  have hst : s.shared.state ≠ 0 := by
    have hs := h.calls c hc
    simpa [TransitionCall.Sound, hp] using hs
  have ht := h.answered.started
  have hm : s.shared.orderly.mode ≠ none := fun hn =>
    hst (h.shared.mode_eq_none_iff.mp hn)
  rw [if_neg hm] at ht
  rw [← ht]
  refine (tally_eq_countP fun d hd => ?_).symm
  obtain ⟨answer, hp⟩ := ha d hd
  simp only [TransitionCall.started, TransitionCall.answer, hasReturned, hp]
  rcases answer with _ | (_ | _ | _) <;> rfl

theorem Sound.keepsProtocol (h : s.Sound) : s.KeepsProtocol where
  moves _ hr := h.moves hr
  started := by
    have hle : s.calls.countP (hasReturned · isStarted) ≤ tally TransitionCall.started s.calls :=
      countP_le_tally fun c _ hc => started_of_hasReturned hc
    have ht := h.answered.started
    split at ht <;> omega
  startedOnce := h.startedOnce
  escalated := by
    have hle : s.calls.countP (hasReturned · (· = .escalatedToFast)) ≤
        tally TransitionCall.escalated s.calls :=
      countP_le_tally fun c _ hc => escalated_of_hasReturned hc
    have ht := h.answered.escalated
    split at ht <;> omega
  deadline t instant hr hd := by
    obtain ⟨-, hl⟩ := later_of_reaches h hr
    obtain ⟨start, hst, rfl⟩ := Option.map_eq_some_iff.mp hd
    simp [SharedShutdown.gracefulDeadline, hl.startedAt start hst, hl.duration]
  visible hm := by
    have hsa : s.shared.state ≠ 0 := fun hz => hm (h.shared.mode_eq_none_iff.mpr hz)
    simpa [SharedShutdown.gracefulDeadline] using h.shared.started hsa
  notified hq w hw seen hp hf := by
    rcases (h.waiters w hw).notified seen hp hf with hlt | ⟨c, hc, hn⟩
    · exact Nat.ne_of_lt hlt
    · rw [hq c hc] at hn
      cases hn
  reachable c hc hp := by
    have hs := h.calls c hc
    simp [TransitionCall.Sound, hp] at hs

/-- In every interleaving of calls and waiters.  A request of the Address controller does not
escalate a shutdown as long as no Graceful one begins between its test and its effect. -/
theorem shutdown_keeps_protocol {duration : Nat} (hrun : system.Reaches (start duration) s) :
    s.KeepsProtocol ∧ (system.Steps GracefulApart (start duration) s →
      ∀ c ∈ s.calls, c.caller = .request → c.answer ≠ some .escalatedToFast) := by
  have hso : s.Sound := hrun.invariant (I := Sound) (fun _ _ _ hi _ hs => hi.step hs)
    (sound_start duration)
  refine ⟨hso.keepsProtocol, fun ha c hc => ?_⟩
  have hb : s.Sound ∧ ∀ c ∈ s.calls, c.Unescalating s.shared := by
    refine ha.invariant
      (I := fun s => s.Sound ∧ ∀ c ∈ s.calls, c.Unescalating s.shared) ?_
      ⟨sound_start duration, by simp [start]⟩
    rintro s a t ⟨hi, hca⟩ hok hs
    exact ⟨hi.step hs, unescalating_step hi hca hok hs⟩
  exact (hb.2 c hc).answer

/-- A request that finds no mode loses its exchange to another request, a waiter for Fast
waits through it, and a Graceful begin comes too late. -/
theorem shutdown_keeps_protocol_of_requests :
    ∃ s, system.Steps GracefulApart (start 10) s ∧
      s.calls.map (·.phase) = [.returned (some (.alreadyStarted .fast)),
        .returned (some (.started .fast)), .returned (some (.alreadyStarted .fast))] ∧
      s.waiters.map (·.phase) = [.returned .fast] ∧
      s.shared.gracefulDeadline = some 11 ∧ s.KeepsProtocol ∧
      ∀ c ∈ s.calls, c.caller = .request → c.answer ≠ some .escalatedToFast := by
  have he : ∃ s ∈ system.execWhile GracefulApart (start 10)
      [.wait true, .waiterStep 0, .waiterStep 0, .call .request, .callStep 0, .callStep 0,
        .call .request, .callStep 1, .callStep 1, .tick, .callStep 1, .tick, .callStep 1,
        .callStep 0, .callStep 0, .callStep 1, .callStep 0, .callStep 1, .callStep 1,
        .waiterStep 0, .waiterStep 0, .waiterStep 0, .callStep 0, .callStep 0,
        .call (.begins .graceful), .callStep 2],
      s.calls.map (·.phase) = [.returned (some (.alreadyStarted .fast)),
        .returned (some (.started .fast)), .returned (some (.alreadyStarted .fast))] ∧
      s.waiters.map (·.phase) = [.returned .fast] ∧
      s.shared.gracefulDeadline = some 11 := by
    decide
  obtain ⟨s, he, hp, hw, hd⟩ := he
  have hs := Lts.Steps.of_execWhile he
  have hre : system.Reaches (start 10) s := hs.mono fun _ _ _ => trivial
  obtain ⟨hk, hr⟩ := shutdown_keeps_protocol hre
  exact ⟨s, hs, hp, hw, hd, hk, hr hs⟩

/-- A Graceful shutdown begins after the test of a request, and the request turns it into
a Fast one. -/
theorem request_escalates_graceful :
    ∃ s, system.Reaches (start 10) s ∧
      s.calls = [⟨.request, .returned (some .escalatedToFast)⟩,
        ⟨.handle .graceful, .returned (some (.started .graceful))⟩] ∧
      s.shared.mode = some .fast :=
  Lts.exists_steps
    [.call .request, .callStep 0, .call (.handle .graceful), .callStep 1, .callStep 1,
      .callStep 1, .callStep 1, .callStep 1, .callStep 1, .callStep 0, .callStep 0,
      .callStep 0, .callStep 0]
    (by decide)

end ShutdownProtocol

end Runewarp
