import Runewarp.Basic

/-!
# Orderly shutdown

The object that carries a shutdown request: not begun, Graceful or Fast, and only
ever moving forward.  Its waiters read the mode and nothing else, so a future that
waits on it is ready exactly when the mode it waits for is there.
-/

namespace Runewarp

inductive ShutdownMode where
  | graceful
  | fast
deriving DecidableEq

/-- The number the source stores for a mode; `0` stands for no mode. -/
def ShutdownMode.state : ShutdownMode → Nat
  | .graceful => 1
  | .fast => 2

inductive ShutdownTransition where
  | started (mode : ShutdownMode)
  | escalatedToFast
  | alreadyStarted (mode : ShutdownMode)
deriving DecidableEq

structure OrderlyShutdown where
  mode : Option ShutdownMode
  gracefulShutdownDuration : Nat
deriving DecidableEq

namespace OrderlyShutdown

def new (gracefulShutdownDuration : Nat) : OrderlyShutdown := ⟨none, gracefulShutdownDuration⟩

/-- `transition_to`: the state only grows. -/
def transitionTo (s : OrderlyShutdown) (new : ShutdownMode) :
    OrderlyShutdown × ShutdownTransition :=
  match s.mode with
  | none => ({ s with mode := some new }, .started new)
  | some current =>
    if new.state ≤ current.state then (s, .alreadyStarted current)
    else ({ s with mode := some new }, .escalatedToFast)

/-- `begin_graceful` and `begin_fast`, for a caller that drops the answer. -/
def enter (s : OrderlyShutdown) (mode : ShutdownMode) : OrderlyShutdown := (s.transitionTo mode).1

def beginFast (s : OrderlyShutdown) : OrderlyShutdown := s.enter .fast

theorem of_mode_enter {s : OrderlyShutdown} {m mode : ShutdownMode}
    (h : (s.enter m).mode = some mode) : m = mode ∨ s.mode = some mode := by
  unfold enter transitionTo at h
  split at h
  · exact .inl (Option.some.inj h)
  · split at h
    · exact .inr h
    · exact .inl (Option.some.inj h)

@[simp] theorem mode_enter_isSome (s : OrderlyShutdown) (m : ShutdownMode) :
    (s.enter m).mode.isSome = true := by
  unfold enter transitionTo
  split
  · rfl
  · split <;> simp [*]

@[simp] theorem mode_enter_ne_none (s : OrderlyShutdown) (m : ShutdownMode) :
    (s.enter m).mode ≠ none :=
  Option.isSome_iff_ne_none.mp (mode_enter_isSome s m)

theorem mode_enter_of_fast {s : OrderlyShutdown} (m : ShutdownMode) (h : s.mode = some .fast) :
    (s.enter m).mode = some .fast := by
  cases m <;> simp [enter, transitionTo, h, ShutdownMode.state]

@[simp] theorem mode_beginFast (s : OrderlyShutdown) : s.beginFast.mode = some .fast := by
  simp only [beginFast, enter, transitionTo]
  match h : s.mode with
  | none => rfl
  | some .graceful => rfl
  | some .fast => simpa [ShutdownMode.state] using h

end OrderlyShutdown

end Runewarp
