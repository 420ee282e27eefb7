import Mathlib.Data.List.Basic

/-!
# Counting semaphores with a fair queue

Each waiter asks for one permit.  A permit that comes back goes to the first waiter of
the queue, if there is one, before that waiter looks again: it is *granted*, and it
comes back when the waiter gives up without having looked.

`stock` is what the semaphore has not handed out.  Every operation says what it does
to it.
-/

/-- A semaphore with waiters named by `ι`. -/
structure Semaphore (ι : Type) where
  permits : Nat
  queue : List ι := []
  /-- Waiters that have been given a permit and have not looked. -/
  granted : List ι := []

namespace Semaphore

variable {ι : Type} {s t : Semaphore ι}

/-- What has not been handed out. -/
def stock (s : Semaphore ι) : Nat := s.permits + s.granted.length

/-- A permit comes back. -/
def release (s : Semaphore ι) : Semaphore ι :=
  match s.queue with
  | [] => { s with permits := s.permits + 1 }
  | i :: queue => { s with queue := queue, granted := s.granted ++ [i] }

def tryAcquire (s : Semaphore ι) : Option (Semaphore ι) :=
  if 0 < s.permits then some { s with permits := s.permits - 1 } else none

theorem stock_release (s : Semaphore ι) : s.release.stock = s.stock + 1 := by
  unfold release
  split
  · simp only [stock]
    omega
  · simp only [stock, List.length_append, List.length_singleton]
    omega

theorem stock_tryAcquire (h : s.tryAcquire = some t) : t.stock + 1 = s.stock := by
  obtain ⟨hp, rfl⟩ := Option.ite_some_none_eq_some.mp h
  simp only [stock]
  omega

variable [DecidableEq ι]

/-- Waiter `i` looks: what becomes of the semaphore, and whether `i` has a permit. -/
def poll (s : Semaphore ι) (i : ι) : Semaphore ι × Bool :=
  if i ∈ s.granted then ({ s with granted := s.granted.erase i }, true)
  else if i ∈ s.queue then (s, false)
  else if 0 < s.permits then ({ s with permits := s.permits - 1 }, true)
  else ({ s with queue := s.queue ++ [i] }, false)

/-- Waiter `i` gives up. -/
def cancel (s : Semaphore ι) (i : ι) : Semaphore ι :=
  if i ∈ s.granted then release { s with granted := s.granted.erase i }
  else { s with queue := s.queue.erase i }

theorem stock_poll (s : Semaphore ι) (i : ι) :
    ((s.poll i).1.stock + if (s.poll i).2 then 1 else 0) = s.stock := by
  unfold poll
  split
  next hi =>
    have hl := List.length_erase_add_one hi
    simp only [stock, if_true]
    omega
  next =>
    split
    next => simp
    next =>
      split
      next hp =>
        simp only [stock, if_true]
        omega
      next => simp [stock]

theorem stock_cancel (s : Semaphore ι) (i : ι) : (s.cancel i).stock = s.stock := by
  unfold cancel
  split
  next hi =>
    have hl := List.length_erase_add_one hi
    rw [stock_release]
    simp only [stock]
    omega
  next => simp [stock]

/-! ## Those who keep away -/

/-- `i` neither waits nor has been given a permit. -/
def Absent (s : Semaphore ι) (i : ι) : Prop := i ∉ s.queue ∧ i ∉ s.granted

namespace Absent

variable {i j : ι}

omit [DecidableEq ι] in
theorem release (h : s.Absent i) : s.release.Absent i := by
  unfold Semaphore.release
  split
  · exact h
  · next first rest hq =>
    obtain ⟨hw, hg⟩ := h
    rw [hq] at hw
    simp only [List.mem_cons, not_or] at hw
    exact ⟨hw.2, by simp [hg, hw.1]⟩

omit [DecidableEq ι] in
theorem tryAcquire (h : s.Absent i) (ht : s.tryAcquire = some t) : t.Absent i := by
  obtain ⟨-, rfl⟩ := Option.ite_some_none_eq_some.mp ht
  exact h

theorem poll (h : s.Absent i) (hne : i ≠ j) : (s.poll j).1.Absent i := by
  unfold Semaphore.poll
  split
  · exact ⟨h.1, fun hm => h.2 (List.mem_of_mem_erase hm)⟩
  · split
    · exact h
    · split
      · exact h
      · exact ⟨by simp [h.1, hne], h.2⟩

theorem cancel (h : s.Absent i) : (s.cancel j).Absent i := by
  unfold Semaphore.cancel
  split
  · exact release ⟨h.1, fun hm => h.2 (List.mem_of_mem_erase hm)⟩
  · exact ⟨fun hm => h.1 (List.mem_of_mem_erase hm), h.2⟩

end Absent

end Semaphore
