import Mathlib.Tactic.TypeStar

/-!
# A notification with one waiter

`Notify` keeps one permit.  A notification goes to the waiter, if there is one, and is
stored otherwise.  A waiter that is dropped after it was notified passes the notification
on, so a task that waits in a loop of its own futures loses none.
-/

/-- The future that waits: there is none, it waits, or it was notified and not yet polled. -/
inductive Notify.Waiter where
  | absent
  | waiting
  | notified
deriving DecidableEq

structure Notify where
  permit : Bool := false
  waiter : Notify.Waiter := .absent
  /-- Who waits has found no permit. -/
  waits : waiter = .waiting → permit = false := by decide
deriving DecidableEq

namespace Notify

/-- A notification is there and nobody has taken it. -/
def isHeld (n : Notify) : Bool := n.permit || decide (n.waiter = .notified)

def notifyOne (n : Notify) : Notify :=
  match h : n.waiter with
  | .waiting => ⟨n.permit, .notified, fun hw => by cases hw⟩
  | .absent | .notified => ⟨true, n.waiter, fun hw => by rw [h] at hw; cases hw⟩

/-- The waiter is polled, and created where there is none: whether it is ready. -/
def poll (n : Notify) : Bool × Notify :=
  match n.waiter with
  | .notified => (true, ⟨n.permit, .absent, fun hw => by cases hw⟩)
  | .waiting => (false, n)
  | .absent =>
    if n.permit then (true, {})
    else (false, ⟨false, .waiting, fun _ => rfl⟩)

/-- The waiter is dropped. -/
def dropWaiter (n : Notify) : Notify :=
  match n.waiter with
  | .notified => { permit := true }
  | .waiting | .absent => ⟨n.permit, .absent, fun hw => by cases hw⟩

theorem isHeld_notifyOne (n : Notify) : n.notifyOne.isHeld = true := by
  unfold notifyOne
  split <;> simp [isHeld]

@[simp] theorem isHeld_dropWaiter (n : Notify) : n.dropWaiter.isHeld = n.isHeld := by
  unfold dropWaiter
  split <;> simp_all [isHeld]

theorem poll_fst (n : Notify) : n.poll.1 = n.isHeld := by
  have hw := n.waits
  unfold poll
  split
  · simp_all [isHeld]
  · simp_all [isHeld]
  · split <;> simp_all [isHeld]

/-- A poll that is not ready takes nothing. -/
theorem isHeld_poll (n : Notify) (h : n.poll.1 = false) : n.poll.2.isHeld = n.isHeld := by
  have hh : n.isHeld = false := n.poll_fst.symm.trans h
  rw [hh]
  unfold poll at h ⊢
  split at h
  · cases h
  · exact hh
  · split at h
    · cases h
    · next hw hp => simp [hp, isHeld]

end Notify
