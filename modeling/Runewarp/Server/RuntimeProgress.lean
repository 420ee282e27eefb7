import Runewarp.Server.Runtime

/-!
# The way of a Server runtime to its end

`Shape` relates where the layers of a runtime stand: the Server has returned when the
coordinator says so, the session runs as long as the coordinator polls it, and
`follow` has begun the local shutdown of a Server that still accepts, or is waiting.

That a runtime returns is a ranking argument over the steps of its own that are
still to come (`progress`).  It needs process shutdown wherever the runtime waits
for it: in the accept loop and after a drain.
-/

namespace Runewarp

namespace Coordinator

/-- The Server future has been polled to its end. -/
def serverReturned : Coordinator → Bool
  | .drained | .stopping _ | .returned _ => true
  | .static | .selecting | .awaitServer _ => false

/-- The session future is still polled. -/
def awaitsSession : Coordinator → Bool
  | .selecting | .drained | .stopping _ => true
  | .static | .awaitServer _ | .returned _ => false

/-- The result, once it is fixed. -/
def outcome : Coordinator → Option (Except IoError Unit)
  | .stopping result | .returned result => some result
  | .static | .selecting | .drained | .awaitServer _ => none

/-- How many steps the coordinator has still to take once the Server has returned
and process shutdown is there. -/
def remaining : Coordinator → Nat
  | .drained => 2
  | .selecting | .stopping _ => 1
  | .static | .awaitServer _ | .returned _ => 0

end Coordinator

namespace Serve

/-- The terminal error of a `serve` on its way out. -/
def terminalError : Serve → Option (Option IoError)
  | .leaving _ error | .graceful error | .closing error => some error
  | .accepting | .done => none

/-- How many steps `serve` has still to take once its local shutdown is to begin. -/
def remaining (begun : Bool) : Serve → Nat
  | .accepting => if begun then 4 else 5
  | .leaving _ _ => 3
  | .graceful _ => 2
  | .closing _ => 1
  | .done => 0

theorem four_le_accepting (begun : Bool) : 4 ≤ Serve.accepting.remaining begun := by
  cases begun <;> decide

theorem remaining_mono (serve : Serve) {begun begun' : Bool} (h : begun' = true) :
    serve.remaining begun' ≤ serve.remaining begun := by
  subst h
  cases serve with
  | accepting => exact four_le_accepting begun
  | _ => exact le_rfl

end Serve

namespace ServerRuntime

/-! ## Where the layers stand -/

structure Shape (s : ServerRuntime) : Prop where
  server : s.serve = .done ↔ s.coordinator.serverReturned = true
  session : s.session = .running ↔ s.coordinator.awaitsSession = true
  following : s.serve = .accepting → (s.localShutdown.mode = none ↔ s.follow = .waiting)

theorem shape_start (duration last : Nat) (withAcme managed : Bool) :
    (start duration last withAcme managed).Shape := by
  cases managed <;> constructor <;>
    simp [start, Coordinator.serverReturned, Coordinator.awaitsSession, OrderlyShutdown.new]

variable {s t : ServerRuntime} {a : Action}

theorem Shape.move (hm : Move s a t) (h : s.Shape) : t.Shape := by
  obtain ⟨hse, hss, hfo⟩ := h
  cases hm with
  | @follows _ m _ hf _ =>
    refine ⟨hse, hss, fun _ => ?_⟩
    cases m <;> simp [ServerRuntime.follows]
  | escalates => exact ⟨hse, hss, by simp⟩
  | admits => exact ⟨hse, hss, hfo⟩
  | leaves hs | fails hs =>
    simp only [hs, reduceCtorEq, false_iff] at hse
    exact ⟨by simpa using hse, hss, by simp⟩
  | joins hs hn =>
    simp only [hs, reduceCtorEq, false_iff] at hse
    rcases hn with rfl | rfl <;> exact ⟨by simpa using hse, hss, by simp⟩
  | closes hs =>
    simp only [hs, reduceCtorEq, false_iff] at hse
    exact ⟨by simpa using hse, hss, by simp⟩
  | drained hs hc | stops hs hc =>
    simp only [hc, Coordinator.awaitsSession, iff_true] at hss
    exact ⟨by simp [Coordinator.serverReturned],
      by simpa [Coordinator.awaitsSession] using hss, by simp⟩
  | returns hs hc =>
    refine ⟨by simp [Coordinator.serverReturned], ?_, by simp⟩
    rcases hc with hc | hc <;> simpa [hc, Coordinator.awaitsSession] using hss
  | returnsOriginal hs hc =>
    refine ⟨by simp [Coordinator.serverReturned], ?_, by simp⟩
    simpa [hc, Coordinator.awaitsSession] using hss
  | wakes hc =>
    simp only [hc, Coordinator.serverReturned, Coordinator.awaitsSession, iff_true] at *
    exact ⟨by simpa [Coordinator.serverReturned] using hse,
      by simpa [Coordinator.awaitsSession] using hss, hfo⟩
  | endsFast hs hc | endsEarly hs hc =>
    simp only [hc, Coordinator.serverReturned] at hse
    exact ⟨by simpa [Coordinator.serverReturned] using hse,
      by simp [Coordinator.awaitsSession], hfo⟩
  | endsDrained hs hc | endsStopped hs hc =>
    simp only [hc, Coordinator.serverReturned] at hse
    exact ⟨by simpa [Coordinator.serverReturned] using hse,
      by simp [Coordinator.awaitsSession], hfo⟩
  | _ => exact ⟨hse, hss, hfo⟩

/-! ## Steps towards the end -/

/-- The runtime has returned. -/
def Returned (s : ServerRuntime) : Prop := ∃ r, s.coordinator = .returned r

/-- The steps of the runtime itself that bring it closer to its end. -/
def Advances (s : ServerRuntime) : Action → Prop
  | .followShutdown | .followDrain => s.serve = .accepting
  | .event event => event = .fatal ∨ event = .shutdown
  | .handshakesJoined | .gracefulOver | .gracefulFast | .flushed | .shutdownSeen
  | .sessionEnds => True
  | .beginShutdown _ | .beginDrain | .raiseFatal | .followFast | .acmeEnds _ => False

def rank (s : ServerRuntime) : Nat :=
  s.serve.remaining s.localShutdown.mode.isSome + s.coordinator.remaining

/-- A step that advances lowers the rank, unless it enters the wait of a drained
Server. -/
theorem rank_lt_of_advances (h : s.Shape) (hm : Move s a t) (ha : s.Advances a)
    (hd : t.coordinator = .drained → s.coordinator = .drained) : t.rank < s.rank := by
  cases hm with
  | @follows _ m _ hf hca =>
    have hs : s.serve = .accepting := by
      rcases hca with ⟨rfl, -⟩ | ⟨rfl, -⟩ <;> exact ha
    have hno := (h.following hs).mpr hf
    have hso := OrderlyShutdown.mode_enter_isSome s.localShutdown m
    simp [rank, ServerRuntime.follows, hs, hno, hso, Serve.remaining]
  | admits _ he => rcases ha with rfl | rfl <;> cases he
  | leaves hs | fails hs =>
    have := Serve.four_le_accepting s.localShutdown.mode.isSome
    simp only [rank, hs, Serve.remaining] at this ⊢
    omega
  | joins hs hn => rcases hn with rfl | rfl <;> simp [rank, hs, Serve.remaining]
  | closes hs => simp [rank, hs, Serve.remaining]
  | drained hs hc => simp [hc] at hd
  | returns hs hc =>
    rcases hc with hc | hc <;> simp [rank, hs, hc, Serve.remaining, Coordinator.remaining]
  | stops hs hc | returnsOriginal hs hc =>
    simp [rank, hs, hc, Serve.remaining, Coordinator.remaining]
  | wakes hc | endsFast _ hc | endsEarly _ hc | endsDrained _ hc | endsStopped _ hc =>
    simp [rank, hc, Coordinator.remaining]
  | _ => exact ha.elim

theorem rank_le_of_move (h : s.Shape) (hm : Move s a t)
    (hd : t.coordinator = .drained → s.coordinator = .drained) : t.rank ≤ s.rank := by
  by_cases ha : s.Advances a
  · exact Nat.le_of_lt (rank_lt_of_advances h hm ha hd)
  · cases hm with
    | begins | drains | raises | acmeEnds | admits => exact le_rfl
    | follows | escalates =>
      exact Nat.add_le_add_right (Serve.remaining_mono _ (by simp [ServerRuntime.follows])) _
    | fails hs =>
      have := Serve.four_le_accepting s.localShutdown.mode.isSome
      simp only [rank, hs, Serve.remaining] at this ⊢
      omega
    | leaves => exact (ha (.inr rfl)).elim
    | closes _ hc => rcases hc with rfl | rfl <;> exact (ha trivial).elim
    | _ => exact (ha trivial).elim

/-- A step with which the runtime goes on. -/
def nextStep (s : ServerRuntime) : Action :=
  match s.serve with
  | .accepting =>
    if s.fatal then .event .fatal
    else if s.localShutdown.mode.isSome then .event .shutdown
    else .followShutdown
  | .leaving _ _ => .handshakesJoined
  | .graceful _ => .gracefulOver
  | .closing _ => .flushed
  | .done =>
    match s.coordinator with
    | .drained => .shutdownSeen
    | _ => .sessionEnds

theorem coordinateServer_isSome (r : Except IoError Unit)
    (h : s.coordinator.serverReturned = false) : (s.coordinateServer r).isSome = true := by
  unfold coordinateServer
  match hc : s.coordinator with
  | .static => rfl
  | .selecting =>
    show (if _ then some _ else some _ : Option ServerRuntime).isSome = true
    split <;> rfl
  | .awaitServer none => rfl
  | .awaitServer (some _) => rfl
  | .drained | .stopping _ | .returned _ => cases hc ▸ h

/-- With process shutdown begun wherever the runtime waits for it, the next step
advances and is enabled. -/
theorem nextStep_enabled (h : s.Shape)
    (hw : s.serve = .accepting ∨ s.coordinator = .drained → s.process.mode ≠ none)
    (ho : ¬ s.Returned) : s.Advances s.nextStep ∧ (system.step s s.nextStep).isSome = true := by
  simp only [system]
  cases hs : s.serve with
  | accepting =>
    simp only [nextStep, hs]
    cases hfa : s.fatal with
    | true =>
      simp [Advances, step, hs, eventReady, hfa, onEvent,
        breakFast, breakLoop]
    | false =>
      cases hl : s.localShutdown.mode with
      | some m =>
        simp [Advances, step, hs, eventReady, hfa, hl,
          onEvent, breakLoop]
      | none =>
        have hf := (h.following hs).mp hl
        have hm := Option.isSome_iff_ne_none.mpr (hw (.inl hs))
        simp [Advances, step, hs, hf, hm]
  | leaving => simp [nextStep, hs, Advances, step]
  | graceful => simp [nextStep, hs, Advances, step]
  | closing err =>
    have hc : s.coordinator.serverReturned = false := by
      have := h.server
      simpa [hs] using this
    have hso := coordinateServer_isSome (s := { s with serve := .done }) (s.handedOn err) hc
    simpa [nextStep, hs, Advances, step, serveReturns, handedOn] using hso
  | done =>
    have hc := h.server.mp hs
    cases hco : s.coordinator with
    | drained => simpa [nextStep, hs, hco, Advances, step] using hw (.inr hco)
    | stopping r =>
      have hse := h.session.mpr (by rw [hco]; rfl)
      simp [nextStep, hs, hco, Advances, step, hse, coordinateSession]
    | returned r => exact (ho ⟨r, hco⟩).elim
    | _ => cases hco ▸ hc

theorem progress {ok : ServerRuntime → Action → Prop} {I : ServerRuntime → Prop}
    (keep : ∀ s a t, I s → ok s a → system.step s a = some t → I t)
    (shape : ∀ s, I s → s.Shape)
    (waits : ∀ s, I s → s.serve = .accepting ∨ s.coordinator = .drained →
      s.process.mode ≠ none)
    (drained : ∀ s a t, I s → ok s a → Move s a t → t.coordinator = .drained →
      s.coordinator = .drained)
    (goesOn : ∀ s, I s → ¬ s.Returned → s.Advances s.nextStep → ok s s.nextStep) :
    system.Progress ok Advances I Returned rank where
  keep := keep
  own_lt := fun s a t hi hok ha hs =>
    have hm := move_of_step hs
    rank_lt_of_advances (shape s hi) hm ha (drained s a t hi hok hm)
  le := fun s a t hi hok hs =>
    have hm := move_of_step hs
    rank_le_of_move (shape s hi) hm (drained s a t hi hok hm)
  canMove := by
    intro s hi
    by_cases hr : s.Returned
    · exact .inl hr
    · obtain ⟨ha, hso⟩ := nextStep_enabled (shape s hi) (waits s hi) hr
      exact .inr (.of_isSome (goesOn s hi hr ha) ha hso)

end ServerRuntime

end Runewarp
