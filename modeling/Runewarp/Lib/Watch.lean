import Mathlib.Data.Option.Basic

/-!
# Watch channels

A channel that keeps the last value sent and counts the sends.  A receiver remembers
the count it last looked at, so it learns that there was a change but not how many
there were.  A send without a receiver fails and leaves the value as it is.
-/

/-- The shared part of a watch channel. -/
structure Watch (α : Type) where
  value : α
  version : Nat
deriving DecidableEq

namespace Watch

variable {α : Type}

def new (value : α) : Watch α := ⟨value, 0⟩

/-- A send, with whether the channel has a receiver. -/
def send (w : Watch α) (ha : Bool) (value : α) : Watch α :=
  if ha then ⟨value, w.version + 1⟩ else w

/-- A change of the value in place, which counts as a send. -/
def modify (w : Watch α) (f : α → α) : Watch α := ⟨f w.value, w.version + 1⟩

/-- A change of the value in place that counts as a send only when it says so. -/
def modifyIf (w : Watch α) (value : α) (modified : Bool) : Watch α :=
  ⟨value, if modified then w.version + 1 else w.version⟩

/-- What waiting for a change finds. -/
inductive Changed where
  | pending
  | changed
  | closed
deriving DecidableEq

/-- A receiver that last saw `seen` waits for a change.  A change that was sent before
the sender went away is still reported. -/
def changed (w : Watch α) (seen : Nat) (senderDropped : Bool) : Changed :=
  if seen ≠ w.version then .changed
  else if senderDropped then .closed
  else .pending

@[simp] theorem send_true (w : Watch α) (v : α) : (w.send true v).value = v := rfl

@[simp] theorem version_send_true (w : Watch α) (v : α) :
    (w.send true v).version = w.version + 1 := rfl

theorem senderDropped_of_closed {w : Watch α} {seen : Nat} {dropped : Bool}
    (h : w.changed seen dropped = .closed) : dropped = true := by
  unfold changed at h
  split at h
  · cases h
  · split at h
    · assumption
    · cases h

end Watch
