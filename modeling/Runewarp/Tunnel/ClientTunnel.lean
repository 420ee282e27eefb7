import Runewarp.Lib.Watch
import Runewarp.Tunnel.VisitorCredits

/-!
# A Tunnel connection of a Client

The Client's end of a Tunnel connection has two tasks of its own.  `follow_events` reads
the snapshots of the Server, subscribes again when a subscription ends, and publishes
the replacement hint.  The session task offers Visitor credit; on a candidate it waits
at the credit gate until the credit is released.

What the peer sends and when a time limit runs out is a choice of the environment, so a
time limit is a failure that may come at any time.  A task that is aborted may still go
on for a while, since an abort takes effect only where the task waits.
-/

namespace Runewarp.Tunnel

/-- `TunnelEventState`, with generations `γ`. -/
structure TunnelEventState (γ : Type) where
  serverGeneration : γ
  replacementGeneration : Option γ
deriving DecidableEq

structure ReplacementHint (γ : Type) where
  generation : Option γ
  interruptions : UInt64
  paused : Bool
deriving DecidableEq

/-- Where `follow_events` stands. -/
inductive FollowPhase where
  /-- In `read`. -/
  | reading
  /-- `read` returned `Interrupted`; the hint is to be paused. -/
  | interrupted
  /-- At the top of the loop of `resubscribe`, with its flag. -/
  | resubscribing (interrupted : Bool)
  | sleeping (interrupted : Bool)
  /-- In `subscribe`, sending the request. -/
  | requesting (interrupted : Bool)
  /-- In `subscribe`, with the request sent. -/
  | awaiting
  /-- Returned or aborted: the sender of the hint is dropped. -/
  | finished
deriving DecidableEq

/-- What a subscription gives. -/
inductive Received (γ : Type) where
  | state (state : TunnelEventState γ)
  | keepalive
  | ended
  | incompatible
  /-- `RemoteClosing`: GOAWAY forbids the request. -/
  | refused
  /-- `ConnectionError`. -/
  | lost
  /-- Another error, or the time limit. -/
  | failed
deriving DecidableEq

inductive FollowEvent (γ : Type) where
  | received (received : Received γ)
  /-- The request of `subscribe` is sent. -/
  | opened
  /-- The next statement, or the end of the sleep. -/
  | go
  | abort
deriving DecidableEq

/-- The sender of the credit gate. -/
inductive CreditRelease where
  | held
  | sent
  /-- Dropped, or never made. -/
  | none
deriving DecidableEq

inductive SessionPhase where
  /-- A candidate, at the credit gate. -/
  | gated
  /-- In the loop. -/
  | offering
  /-- Ended or aborted: `CreditMaintenance` is dropped. -/
  | finished
deriving DecidableEq

inductive SessionEvent where
  /-- The gate gives what became of its sender. -/
  | gate
  /-- The session or the connection is closed, or the loop ends. -/
  | close
  | abort
deriving DecidableEq

structure ClientTunnel (γ : Type) where
  /-- Established with an expected generation. -/
  candidate : Bool
  /-- The handle is held. -/
  owned : Bool := true
  /-- The connection has a close reason. -/
  closed : Bool := false
  state : TunnelEventState γ
  hint : Watch (ReplacementHint γ)
  events : FollowPhase := .reading
  session : SessionPhase
  creditRelease : CreditRelease
deriving DecidableEq

variable {γ : Type}

/-- An end of `subscribe` that can come before its request is sent. -/
def Received.isError : Received γ → Bool
  | .incompatible | .refused | .lost | .failed => true
  | .state _ | .keepalive | .ended => false

variable [DecidableEq γ]

def TunnelEventState.hintedReplacement (state : TunnelEventState γ) : Option γ :=
  state.replacementGeneration.filter fun replacement => replacement ≠ state.serverGeneration

namespace ClientTunnel

def generation (t : ClientTunnel γ) : γ := t.state.serverGeneration

/-- A connection with its tasks spawned, after its first snapshot. -/
def new (candidate : Bool) (initial : TunnelEventState γ) : ClientTunnel γ where
  candidate := candidate
  state := initial
  hint := .new ⟨initial.hintedReplacement, 0, false⟩
  session := if candidate then .gated else .offering
  creditRelease := if candidate then .held else .none

/-- `establish_internal` from the first snapshot on; `none` is `WrongGeneration`. -/
def establish (expectedGeneration : Option γ) (initial : TunnelEventState γ) :
    Option (ClientTunnel γ) :=
  if expectedGeneration.any fun expected => expected ≠ initial.serverGeneration then none
  else some (new expectedGeneration.isSome initial)

def releaseCredit (t : ClientTunnel γ) : ClientTunnel γ :=
  { t with creditRelease := if t.creditRelease = .held then .sent else t.creditRelease }

/-- The handle is dropped, and with it the sender of the gate; the tasks are aborted. -/
def drop (t : ClientTunnel γ) : ClientTunnel γ :=
  { t with
    owned := false
    creditRelease := if t.creditRelease = .held then .none else t.creditRelease }

/-! ## `follow_events` -/

/-- The connection is closed for a protocol violation, and `follow_events` returns. -/
def violate (t : ClientTunnel γ) : ClientTunnel γ := { t with closed := true, events := .finished }

/-- `accept_state`, and what follows it. -/
def acceptState (t : ClientTunnel γ) (state : TunnelEventState γ) : ClientTunnel γ :=
  if state.serverGeneration ≠ t.state.serverGeneration then t.violate
  else
    let hint := t.hint.value
    let generation := state.hintedReplacement
    { t with
      state := state
      hint := t.hint.modifyIf { hint with generation := generation, paused := false }
        (hint.generation ≠ generation || hint.paused)
      events := .reading }

def countInterruption (t : ClientTunnel γ) (interrupted : Bool) : ClientTunnel γ :=
  if interrupted then t
  else
    { t with hint := t.hint.modify fun hint =>
        { hint with generation := none, interruptions := hint.interruptions + 1 } }

/-- `forbids_new_requests`: the hint stands unless an interruption has cleared it. -/
def refuse (t : ClientTunnel γ) (interrupted : Bool) : ClientTunnel γ :=
  if interrupted then { t with events := .finished }
  else
    { t with
      hint := t.hint.modify fun hint => { hint with paused := false }
      events := .finished }

/-- The hint is paused when `read` has returned. -/
def pause (t : ClientTunnel γ) : ClientTunnel γ :=
  { t with
    hint := t.hint.modifyIf { t.hint.value with paused := true } (!t.hint.value.paused)
    events := .resubscribing false }

/-- The end of a `subscribe` in `resubscribe`. -/
def subscribed (t : ClientTunnel γ) (interrupted : Bool) : Received γ → ClientTunnel γ
  | .state state => t.acceptState state
  | .keepalive => t
  | .incompatible => t.violate
  | .refused | .lost => t.refuse interrupted
  | .ended | .failed => { t.countInterruption interrupted with events := .resubscribing true }

/-- What `read` does with what it receives. -/
def read (t : ClientTunnel γ) : Received γ → ClientTunnel γ
  | .state state => t.acceptState state
  | .keepalive => t
  | .incompatible => t.violate
  | .ended | .refused | .lost | .failed => { t with events := .interrupted }

/-- One step of `follow_events`. -/
def follow (t : ClientTunnel γ) (event : FollowEvent γ) : Option (ClientTunnel γ) :=
  match t.events, event with
  | .reading, .received received => some (t.read received)
  | .interrupted, .go => some t.pause
  | .resubscribing interrupted, .go =>
    some { t with events := if t.closed then .finished else .sleeping interrupted }
  | .sleeping interrupted, .go => some { t with events := .requesting interrupted }
  | .requesting interrupted, .opened =>
    some { t.countInterruption interrupted with events := .awaiting }
  | .requesting interrupted, .received received =>
    if received.isError then some (t.subscribed interrupted received) else none
  | .awaiting, .received received => some (t.subscribed true received)
  | .finished, _ => none
  | _, .abort => if t.owned then none else some { t with events := .finished }
  | _, _ => none

/-! ## The session task -/

/-- The session task ends, and closes the connection. -/
def endSession (t : ClientTunnel γ) : ClientTunnel γ :=
  { t with closed := true, session := .finished }

/-- One step of the session task at the gate, and the end of its loop. -/
def sessionStep (t : ClientTunnel γ) (event : SessionEvent) : Option (ClientTunnel γ) :=
  match t.session, event with
  | .gated, .gate =>
    match t.creditRelease with
    | .held => none
    | .sent => some { t with session := .offering }
    | .none => some t.endSession
  | .gated, .close | .offering, .close => some t.endSession
  | .gated, .abort | .offering, .abort =>
    if t.owned then none else some { t with session := .finished }
  | _, _ => none

/-! ## What the tasks keep -/

/-- The hint does not name the connection's own generation. -/
def Sound (t : ClientTunnel γ) : Prop := t.hint.value.generation ≠ some t.generation

theorem hintedReplacement_ne (state : TunnelEventState γ) :
    state.hintedReplacement ≠ some state.serverGeneration := by
  simp [TunnelEventState.hintedReplacement, Option.filter_eq_some_iff]

variable {t t' : ClientTunnel γ}

theorem sound_new (candidate : Bool) (initial : TunnelEventState γ) :
    (new candidate initial).Sound :=
  hintedReplacement_ne initial

theorem of_establish {expected : γ} {initial : TunnelEventState γ}
    (h : establish (some expected) initial = some t) :
    t = new true initial ∧ t.generation = expected := by
  unfold establish at h
  split at h
  · cases h
  · next hg =>
    cases h
    simp only [Option.any_some, ne_eq, decide_not, Bool.not_eq_true', decide_eq_false_iff_not,
      not_not] at hg
    exact ⟨rfl, hg.symm⟩

/-- What a step of one of the tasks can do. -/
structure TaskStep (t t' : ClientTunnel γ) : Prop where
  candidate : t'.candidate = t.candidate
  generation : t'.generation = t.generation
  sound : t.Sound → t'.Sound
  creditRelease : t'.creditRelease = t.creditRelease
  /-- The gate opens only when the credit is released. -/
  session : t'.session = .offering → t.session = .offering ∨ t.creditRelease = .sent

namespace TaskStep

omit [DecidableEq γ]

theorem refl : TaskStep t t := ⟨rfl, rfl, id, rfl, .inl⟩

theorem trans {t'' : ClientTunnel γ} (h : TaskStep t t') (h' : TaskStep t' t'') :
    TaskStep t t'' where
  candidate := h'.candidate.trans h.candidate
  generation := h'.generation.trans h.generation
  sound hs := h'.sound (h.sound hs)
  creditRelease := h'.creditRelease.trans h.creditRelease
  session hs := by
    rcases h'.session hs with ho | hr
    · exact h.session ho
    · exact .inr (h.creditRelease.symm.trans hr)

theorem phase {closed : Bool} {events : FollowPhase} :
    TaskStep t { t with closed := closed, events := events } :=
  ⟨rfl, rfl, id, rfl, .inl⟩

theorem hint {hint : Watch (ReplacementHint γ)} {events : FollowPhase}
    (h : hint.value.generation = t.hint.value.generation ∨ hint.value.generation = none) :
    TaskStep t { t with hint := hint, events := events } := by
  refine ⟨rfl, rfl, fun hs => ?_, rfl, .inl⟩
  rcases h with hsa | hn
  · intro heq
    exact hs (hsa.symm.trans heq)
  · intro heq
    rw [hn] at heq
    cases heq

theorem countInterruption (interrupted : Bool) : TaskStep t (t.countInterruption interrupted) := by
  cases interrupted with
  | true => exact refl
  | false => exact hint (.inr rfl)

theorem refuse (interrupted : Bool) : TaskStep t (t.refuse interrupted) := by
  cases interrupted with
  | true => exact phase
  | false => exact hint (.inl rfl)

theorem of_sessionStep {event : SessionEvent} (h : t.sessionStep event = some t') :
    TaskStep t t' := by
  unfold sessionStep at h
  split at h
  next =>
    split at h
    next => cases h
    next hs => cases h; exact ⟨rfl, rfl, id, rfl, fun _ => .inr hs⟩
    next => cases h; exact ⟨rfl, rfl, id, rfl, nofun⟩
  next => cases h; exact ⟨rfl, rfl, id, rfl, nofun⟩
  next => cases h; exact ⟨rfl, rfl, id, rfl, nofun⟩
  next =>
    split at h
    · cases h
    · cases h
      exact ⟨rfl, rfl, id, rfl, nofun⟩
  next =>
    split at h
    · cases h
    · cases h
      exact ⟨rfl, rfl, id, rfl, nofun⟩
  next => cases h

end TaskStep

theorem taskStep_acceptState (state : TunnelEventState γ) : TaskStep t (t.acceptState state) := by
  unfold acceptState
  split
  · exact .phase
  · next hs =>
    have hg : state.serverGeneration = t.state.serverGeneration := by simpa using hs
    refine ⟨rfl, hg, fun _ => ?_, rfl, .inl⟩
    exact hintedReplacement_ne state

theorem taskStep_subscribed (interrupted : Bool) (received : Received γ) :
    TaskStep t (t.subscribed interrupted received) := by
  cases received with
  | state state => exact taskStep_acceptState state
  | keepalive => exact .refl
  | incompatible => exact .phase
  | ended | failed => exact (TaskStep.countInterruption interrupted).trans .phase
  | _ => exact .refuse interrupted

theorem taskStep_read (received : Received γ) : TaskStep t (t.read received) := by
  cases received with
  | state state => exact taskStep_acceptState state
  | keepalive => exact .refl
  | _ => exact .phase

theorem taskStep_of_follow {event : FollowEvent γ} (h : t.follow event = some t') :
    TaskStep t t' := by
  unfold follow at h
  split at h
  next => cases h; exact taskStep_read _
  next => cases h; exact .hint (.inl rfl)
  next => cases h; exact .phase
  next => cases h; exact .phase
  next => cases h; exact (TaskStep.countInterruption _).trans .phase
  next =>
    split at h
    · cases h
      exact taskStep_subscribed _ _
    · cases h
  next => cases h; exact taskStep_subscribed _ _
  next => cases h
  next =>
    split at h
    · cases h
    · cases h
      exact .phase
  next => cases h

end ClientTunnel

end Runewarp.Tunnel
