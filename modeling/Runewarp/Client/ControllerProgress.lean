import Mathlib.Algebra.GroupWithZero.Nat
import Runewarp.Client.ControllerSteps
import Mathlib.Algebra.Order.BigOperators.Group.List
import Mathlib.Algebra.Order.Group.Nat

/-!
# The controller goes on

Two things `AddressController::run` is bound to do.  Before it drains, it takes every
completion there is: an apply ends, and with no further apply sent the select comes to
the completions.  Once it drains, it returns: shutdown has been requested by then, with
the flag set every worker has only so many steps left, and every task that is finished
is taken.

Both are rankings for `Lts.Progress`.
-/

namespace Runewarp.Client

/-- `run` has left its select for good. -/
def RunState.Leaving : RunState → Prop
  | .draining _ | .returned _ => True
  | .selecting | .revising _ _ | .reAdopting _ _ _ | .adding _ _ => False

theorem RunState.Leaving.cases {run : RunState} (h : run.Leaving) :
    (∃ e, run = .draining e) ∨ ∃ r, run = .returned r := by
  cases run with
  | draining e => exact .inl ⟨e, rfl⟩
  | returned r => exact .inr ⟨r, rfl⟩
  | _ => exact h.elim

namespace AddressController

variable {s t : AddressController} {action : Action}

section

variable {i : Nat} {w : AddressWorker} {a : ServerAddress} {r : Except String Unit}
  {todo desired : List ServerAddress}

/-- `run` has returned. -/
def Returned (s : AddressController) : Prop := ∃ r, s.run = .returned r

theorem completion_isSome (hy : s.Yields i w r) : (s.completion i).isSome = true := by
  simp only [completion, hy.worker, hy.finished, hy.running, if_true]
  split <;> rfl

/-! ## Completions are taken -/

/-- What `run` does at its select and in an apply. -/
def Serves (s : AddressController) : Action → Prop
  | .enqueue _ | .closeApply | .beginShutdown _ | .publishShutdown | .worker _ _ => False
  | _ => ¬ s.run.Leaving

/-- No further apply is sent. -/
def NoApply (_ : AddressController) (action : Action) : Prop := ∀ x, action ≠ .enqueue x

/-- How many steps `run` takes with so many slots and tasks to get through a queue of
applies and then through the completions. -/
def queueCost (slots tasks : Nat) : List (List ServerAddress) → Nat
  | [] => tasks + 1
  | desired :: queue =>
    2 * slots + desired.length + 3 +
      queueCost (slots + desired.length) (tasks + desired.length) queue

/-- What is left after an apply that still spawns so many workers. -/
def costAfter (s : AddressController) (spawns : Nat) : Nat :=
  queueCost (s.workers.keys.length + spawns) (s.running.length + spawns) s.applyQueue

/-- How many steps `run` takes at most before it drains. -/
def stepsLeft (s : AddressController) : Nat :=
  match s.run with
  | .selecting => s.costAfter 0
  -- The second loop spawns at most one worker for each address.
  | .revising todo desired => 2 * todo.length + desired.length + 2 + s.costAfter desired.length
  | .reAdopting _ todo desired => 2 * todo.length + desired.length + 3 + s.costAfter desired.length
  | .adding todo _ => todo.length + 1 + s.costAfter todo.length
  | .draining _ | .returned _ => 0

theorem queueCost_mono {queue : List (List ServerAddress)} {slots slots' tasks tasks' n : Nat}
    (hs : slots ≤ slots') (ht : tasks + n ≤ tasks') :
    queueCost slots tasks queue + n ≤ queueCost slots' tasks' queue := by
  induction queue generalizing slots slots' tasks tasks' with
  | nil =>
    simp only [queueCost]
    omega
  | cons desired queue ih =>
    have hle : tasks + desired.length + n ≤ tasks' + desired.length := by omega
    have hr := ih (Nat.add_le_add_right hs desired.length) hle
    simp only [queueCost]
    omega

theorem costAfter_le {m n k : Nat} (hq : t.applyQueue = s.applyQueue)
    (hk : t.workers.keys.length + m ≤ s.workers.keys.length + n)
    (hr : t.running.length + m + k ≤ s.running.length + n) :
    t.costAfter m + k ≤ s.costAfter n := by
  unfold costAfter
  rw [hq]
  exact queueCost_mono hk hr

theorem costAfter_pos (n : Nat) : 0 < s.costAfter n := by
  unfold costAfter
  cases s.applyQueue with
  | nil => simp [queueCost]
  | cons desired queue =>
    simp only [queueCost]
    omega

theorem length_keys_removeSlot : (s.removeSlot a).workers.keys.length ≤ s.workers.keys.length := by
  rw [removeSlot, AList.keys_erase]
  exact List.length_erase_le

theorem length_keys_spawnWorker :
    (s.spawnWorker a).workers.keys.length ≤ s.workers.keys.length + 1 := by
  rw [spawnWorker, AList.keys_insert, List.length_cons]
  exact Nat.succ_le_succ List.length_erase_le

theorem stepsLeft_visit (hs : s.run = .revising todo desired) (ha : a ∈ todo)
    (ht : t.run = .revising (todo.erase a) desired ∨ t.run = .reAdopting a (todo.erase a) desired)
    (hc : t.costAfter desired.length ≤ s.costAfter desired.length) :
    t.stepsLeft < s.stepsLeft := by
  have hl := List.length_erase_add_one ha
  rcases ht with ht | ht
  all_goals
    simp only [stepsLeft, hs, ht]
    omega

theorem stepsLeft_addNext
    (hs : s.run = .adding (a :: todo) desired) (ht : t.run = .adding todo desired)
    (hq : t.applyQueue = s.applyQueue)
    (hk : t.workers.keys.length ≤ s.workers.keys.length + 1)
    (hr : t.running.length ≤ s.running.length + 1) : t.stepsLeft < s.stepsLeft := by
  have hc : t.costAfter todo.length + 0 ≤ s.costAfter (todo.length + 1) :=
    costAfter_le hq (by omega) (by omega)
  simp only [stepsLeft, hs, ht, List.length_cons]
  omega

theorem stepsLeft_yield (hy : s.Yields i w r) (hs : s.run = .selecting) (ht : t.run = .selecting)
    (hq : t.applyQueue = s.applyQueue) (hr : t.running = s.running.erase i)
    (hk : t.workers.keys.length ≤ s.workers.keys.length) : t.stepsLeft < s.stepsLeft := by
  have hl := List.length_erase_add_one hy.running
  have hc : t.costAfter 0 + 1 ≤ s.costAfter 0 :=
    costAfter_le hq (by omega) (by rw [hr]; omega)
  simp only [stepsLeft, hs, ht]
  omega

theorem Awaiting.selecting (h : s.Awaiting) (hl : ¬ s.run.Leaving) : s.run = .selecting := by
  rcases h with h | ⟨e, h⟩
  · exact h
  · simp [h, RunState.Leaving] at hl

/-- Where `run` serves, a step of its own brings it nearer to the drain. -/
theorem stepsLeft_lt (hm : Move s action t) (hs : s.Serves action) :
    t.stepsLeft < s.stepsLeft := by
  cases hm with
  | receives hr hq =>
    simp only [stepsLeft, costAfter, hr, hq, queueCost, Nat.add_zero]
    omega
  | receivesClosed hr | seesShutdown hr =>
    simp only [stepsLeft, hr]
    exact costAfter_pos 0
  | passes hr _ ha => exact stepsLeft_visit hr ha (.inl rfl) le_rfl
  | finds hr _ _ ha => exact stepsLeft_visit hr ha (.inr rfl) le_rfl
  | discards hr _ _ _ ha =>
    exact stepsLeft_visit hr ha (.inl rfl)
      (costAfter_le (k := 0) rfl (Nat.add_le_add_right length_keys_removeSlot _) le_rfl)
  | retires hr _ ha => exact stepsLeft_visit hr ha (.inl rfl) le_rfl
  | reAdopts hr | beginsAdding hr =>
    simp only [stepsLeft, costAfter, hr, sendIntent, List.length_nil]
    omega
  | skips hr => exact stepsLeft_addNext hr rfl rfl (Nat.le_succ _) (Nat.le_succ _)
  | respawns hr =>
    refine stepsLeft_addNext hr rfl rfl ?_ (by simp [spawnWorker, removeSlot])
    exact length_keys_spawnWorker.trans (Nat.succ_le_succ length_keys_removeSlot)
  | spawns hr =>
    exact stepsLeft_addNext hr rfl rfl length_keys_spawnWorker (by simp [spawnWorker])
  | acknowledges hr =>
    simp only [stepsLeft, costAfter, hr, List.length_nil]
    omega
  | yieldsStale hy _ haw =>
    have hr := haw.selecting hs
    exact stepsLeft_yield hy hr hr rfl rfl le_rfl
  | yieldsOk hy _ haw =>
    have hr := haw.selecting hs
    exact stepsLeft_yield hy hr hr rfl rfl length_keys_removeSlot
  | yieldsError _ _ hr =>
    have hr := Awaiting.selecting (hr.imp id fun h => ⟨none, h⟩) hs
    simp only [stepsLeft, hr]
    exact costAfter_pos 0
  | yieldsLaterError _ _ hr | returns hr => exact (hs (by simp [hr, RunState.Leaving])).elim
  | _ => exact hs.elim

/-- No step but a further apply takes `run` away from the drain. -/
theorem stepsLeft_le (hm : Move s action t) (hok : s.NoApply action) :
    t.stepsLeft ≤ s.stepsLeft := by
  have hlt := stepsLeft_lt hm
  cases hm with
  | queues => exact (hok _ rfl).elim
  | closes | begins | publishes | works => exact le_rfl
  | yieldsStale _ _ ha | yieldsOk _ _ ha =>
    rcases ha with hr | ⟨e, hr⟩
    · exact Nat.le_of_lt (hlt (by simp [Serves, hr, RunState.Leaving]))
    · simp [stepsLeft, hr, yielded, removeSlot]
  | receives hr | passes hr | finds hr | discards hr | retires hr | reAdopts hr
  | beginsAdding hr | skips hr | respawns hr | spawns hr | acknowledges hr =>
    exact Nat.le_of_lt (hlt (by simp [Serves, hr, RunState.Leaving]))
  | _ =>
    exact Nat.zero_le _

/-- Task `i` has finished. -/
def Finished (i : Nat) (s : AddressController) : Prop :=
  ∃ w r, s.tasks[i]? = some w ∧ w.phase = .finished r

/-- The completion of task `i` has been taken, or `run` drains. -/
def Taken (i : Nat) (s : AddressController) : Prop := i ∉ s.running ∨ s.run.Leaving

theorem Finished.move (h : s.Finished i) (hm : Move s action t) : t.Finished i := by
  obtain ⟨w, r, hw, hp⟩ := h
  obtain ⟨v, hv, hs | hst⟩ := task_kept_of_move hm hw
  · exact ⟨v, r, hv, hs.trans hp⟩
  · exact (hst.not_finished hp).elim

/-- `run` never waits as long as there is a completion to take. -/
theorem Finished.canMove (h : s.Finished i) : s.Taken i ∨ system.CanMove NoApply Serves s := by
  obtain ⟨w, r, hw, hp⟩ := h
  by_cases hi : i ∈ s.running
  · have enabled : ∀ action, s.NoApply action → s.Serves action →
        (s.step action).isSome = true → system.CanMove NoApply Serves s :=
      fun _ hok how hs => .of_isSome hok how hs
    cases hr : s.run with
    | selecting =>
      right
      cases hq : s.applyQueue with
      | cons desired queue =>
        apply enabled .receive <;> simp [NoApply, Serves, RunState.Leaving, step, hr, hq]
      | nil =>
        cases ho : s.applyOpen with
        | false =>
          apply enabled .receiveClosed <;>
            simp [NoApply, Serves, RunState.Leaving, step, hr, hq, ho]
        | true =>
          have hc := completion_isSome ⟨hw, hp, hi⟩
          apply enabled (.reap i) <;>
            simp [NoApply, Serves, RunState.Leaving, step, hr, hq, ho, hc]
    | revising todo desired =>
      right
      cases todo with
      | nil => apply enabled .beginAdding <;> simp [NoApply, Serves, RunState.Leaving, step, hr]
      | cons a todo =>
        apply enabled (.visit a) <;> simp [NoApply, Serves, RunState.Leaving, step, hr]
    | reAdopting a todo desired =>
      right
      apply enabled .reAdopt <;> simp [NoApply, Serves, RunState.Leaving, step, hr]
    | adding todo desired =>
      right
      cases todo with
      | nil => apply enabled .acknowledge <;> simp [NoApply, Serves, RunState.Leaving, step, hr]
      | cons a todo =>
        apply enabled .addNext <;> simp [NoApply, Serves, RunState.Leaving, step, hr]
    | _ => exact .inl (.inr (by simp [hr, RunState.Leaving]))
  · exact .inl (.inl hi)

theorem taking_progress (i : Nat) :
    system.Progress NoApply Serves (Finished i) (Taken i) stepsLeft where
  keep := fun _ _ _ h _ hs => h.move (move_of_step hs)
  own_lt := fun _ _ _ _ _ ho hs => stepsLeft_lt (move_of_step hs) ho
  le := fun _ _ _ _ hok hs => stepsLeft_le (move_of_step hs) hok
  canMove := fun _ h => h.canMove

/-! ## Draining ends -/

/-- The steps of the controller and of its workers. -/
def Own (_ : AddressController) : Action → Prop
  | .enqueue _ | .closeApply | .beginShutdown _ | .publishShutdown => False
  | _ => True

/-- How many steps a task has still to take, its completion included. -/
def taskRank (s : AddressController) (i : Nat) : Nat :=
  match s.tasks[i]? with
  | some w => w.phase.rank + 1
  | none => 1

def rank (s : AddressController) : Nat :=
  (s.running.map s.taskRank).sum + if s.run matches .returned _ then 0 else 1

/-- The drain starts with the shutdown flag set and ends when no task is awaited. -/
structure Drains (s : AddressController) : Prop where
  flag : s.run.Leaving → s.shutdownRequested = true
  drained : ∀ r, s.run = .returned r → s.running = []

theorem drains_start (duration : Nat) : (start duration).Drains where
  flag := by simp [start, RunState.Leaving]
  drained := by simp [start]

theorem Drains.move (h : s.Drains) (hm : Move s action t) : t.Drains where
  flag := by
    intro hl
    cases hm with
    | queues | closes | begins | works | yieldsStale | yieldsOk => exact h.flag hl
    | publishes | receivesClosed | yieldsError => rfl
    | yieldsLaterError _ _ hr | returns hr => exact h.flag (by simp [hr, RunState.Leaving])
    | seesShutdown _ hs => exact hs
    | _ => exact hl.elim
  drained := by
    intro r hr
    cases hm with
    | returns _ he => exact he
    | queues | closes | begins | publishes | works => exact h.drained r hr
    | yieldsStale hy | yieldsOk hy =>
      have hru := hy.running
      rw [h.drained r hr] at hru
      cases hru
    | _ => cases hr

/-- `run` drains its workers, or has done so. -/
structure Draining (s : AddressController) : Prop where
  tracked : s.Tracked
  drains : s.Drains
  leaving : s.run.Leaving

theorem Draining.flag (h : s.Draining) : s.shutdownRequested = true := h.drains.flag h.leaving

end

/-- What can happen while `run` drains. -/
inductive DrainStep (s : AddressController) (action : Action) : AddressController → Prop where
  | outside {u : AddressController} : ¬ s.Own action → u.running = s.running →
      u.tasks = s.tasks → u.run = s.run → u.shutdownRequested = true → DrainStep s action u
  | worker : s.tasks[i]? = some w → w.Step (s.surroundings i w) w' →
      DrainStep s action { s with tasks := s.tasks.set i w' }
  | completion {u : AddressController} : s.Yields i w r → u.running = s.running.erase i →
      u.tasks = s.tasks → u.shutdownRequested = true → u.run = .draining e → DrainStep s action u
  | returns : s.run = .draining e → s.running = [] →
      DrainStep s action { s with run := .returned (drainResult e) }

variable {i : Nat} {w : AddressWorker} {r : Except String Unit}

theorem Draining.run_eq (h : s.Draining) (hy : s.Yields i w r) : ∃ e, s.run = .draining e := by
  rcases h.leaving.cases with hr | ⟨r, hr⟩
  · exact hr
  · have hru := hy.running
    rw [h.drains.drained r hr] at hru
    cases hru

theorem Draining.drainStep (h : s.Draining) (hm : Move s action t) : DrainStep s action t := by
  have hl := h.leaving
  cases hm with
  | publishes => exact .outside id rfl rfl rfl rfl
  | works hw hs => exact .worker hw hs
  | receives hr | receivesClosed hr | passes hr | finds hr | discards hr | retires hr
  | reAdopts hr | beginsAdding hr | skips hr | respawns hr | spawns hr | acknowledges hr
  | seesShutdown hr => simp [hr, RunState.Leaving] at hl
  | yieldsStale hy | yieldsOk hy =>
    obtain ⟨e, he⟩ := h.run_eq hy
    exact .completion hy rfl rfl h.flag he
  | yieldsError hy => exact .completion hy rfl rfl rfl rfl
  | yieldsLaterError hy => exact .completion hy rfl rfl h.flag rfl
  | returns hr hem => exact .returns hr hem
  | _ => exact .outside id rfl rfl rfl h.flag

theorem taskRank_of_some (hw : s.tasks[i]? = some w) : s.taskRank i = w.phase.rank + 1 := by
  simp [taskRank, hw]

theorem taskRank_setTask {w w' : AddressWorker} (hw : s.tasks[i]? = some w) (j : Nat) :
    ({ s with tasks := s.tasks.set i w' } : AddressController).taskRank j =
      if i = j then w'.phase.rank + 1 else s.taskRank j := by
  rcases eq_or_ne i j with rfl | hij
  · simp [taskRank, getElem?_set_of_some hw]
  · simp [taskRank, getElem?_set_of_some hw, hij]

/-- While `run` drains, every step of its own lowers the rank, and no other raises it. -/
theorem Draining.rank_step (h : s.Draining) (hd : DrainStep s action t) :
    t.rank ≤ s.rank ∧ (s.Own action → t.rank < s.rank) := by
  cases hd with
  | outside ho hru ht hrn =>
    have hra : t.rank = s.rank := by
      have hta : t.taskRank = s.taskRank := by
        funext i
        simp [taskRank, ht]
      simp [rank, hru, hta, hrn]
    exact ⟨Nat.le_of_eq hra, fun ho' => (ho ho').elim⟩
  | @worker i w w' hw hs =>
    have hi : i ∈ s.running := by
      by_contra hi
      obtain ⟨r, hr⟩ := h.tracked.finished i w hw hi
      exact hs.not_finished hr
    have hlt := hs.rank_lt (show (s.surroundings i w).shutdown = true from h.flag)
    have hsu : (s.running.map ({ s with tasks := s.tasks.set i w' } :
        AddressController).taskRank).sum < (s.running.map s.taskRank).sum := by
      refine List.sum_lt_sum _ _ ?_ ⟨i, hi, ?_⟩
      · intro j _
        rw [taskRank_setTask hw]
        split
        next hij =>
          subst hij
          rw [taskRank_of_some hw]
          omega
        next => exact le_rfl
      · rw [taskRank_setTask hw, if_pos rfl, taskRank_of_some hw]
        omega
    have hra := Nat.add_lt_add_right hsu (if s.run matches .returned _ then 0 else 1)
    exact ⟨Nat.le_of_lt hra, fun _ => hra⟩
  | @completion i w r e _ hy hru ht _ hrn =>
    obtain ⟨e', he'⟩ := h.run_eq hy
    have hta : t.taskRank = s.taskRank := by
      funext i
      simp [taskRank, ht]
    have hsu := List.sum_map_erase s.taskRank hy.running
    have hon : s.taskRank i = 1 := by simp [taskRank_of_some hy.worker, hy.finished,
      WorkerPhase.rank]
    have hra : t.rank < s.rank := by
      simp only [rank, hru, hta, hrn, he']
      omega
    exact ⟨Nat.le_of_lt hra, fun _ => hra⟩
  | @returns e hr he =>
    have hra :
        ({ s with run := .returned (drainResult e) } : AddressController).rank < s.rank := by
      simp [rank, hr, he]
    exact ⟨Nat.le_of_lt hra, fun _ => hra⟩

theorem Draining.step (h : s.Draining) (hok : s.Unsaturated action) (hm : Move s action t) :
    t.Draining := by
  refine ⟨h.tracked.move hok hm, h.drains.move hm, ?_⟩
  cases h.drainStep hm with
  | outside _ _ _ hr => exact hr ▸ h.leaving
  | worker => exact h.leaving
  | completion _ _ _ _ hr => simp [hr, RunState.Leaving]
  | returns => trivial

/-- As long as a task is awaited, the drain can go on with it. -/
theorem Draining.canMove (h : s.Draining) :
    s.Returned ∨ system.CanMove Unsaturated Own s := by
  rcases h.leaving.cases with ⟨e, hr⟩ | hre
  · right
    have enabled : ∀ action, action ≠ .addNext → s.Own action →
        (s.step action).isSome = true → system.CanMove Unsaturated Own s :=
      fun _ hne ho hs => .of_isSome (fun ha => (hne ha).elim) ho hs
    cases hru : s.running with
    | nil => apply enabled .drained <;> simp [Own, AddressController.step, hr, hru]
    | cons i rest =>
      have hi : i ∈ s.running := by simp [hru]
      obtain ⟨w, hw⟩ : ∃ w, s.tasks[i]? = some w :=
        ⟨_, List.getElem?_eq_getElem (h.tracked.running_lt i hi)⟩
      by_cases hf : ∃ r, w.phase = .finished r
      · obtain ⟨r, hp⟩ := hf
        have hc := completion_isSome ⟨hw, hp, hi⟩
        apply enabled (.reap i) <;> simp [Own, AddressController.step, hr, hc]
      · have hfl : (s.surroundings i w).shutdown = true := h.flag
        have hn := AddressWorker.nextEvent_enabled hfl fun r hp => hf ⟨r, hp⟩
        apply enabled (.worker i w.nextEvent) <;>
          simp [Own, AddressController.step, hw, hn]
  · exact .inl hre

theorem draining_progress : system.Progress Unsaturated Own Draining Returned rank where
  keep := fun _ _ _ h hok hs => h.step hok (move_of_step hs)
  own_lt := fun _ _ _ h _ ho hs => (h.rank_step (h.drainStep (move_of_step hs))).2 ho
  le := fun _ _ _ h _ hs => (h.rank_step (h.drainStep (move_of_step hs))).1
  canMove := fun _ h => h.canMove

end AddressController

end Runewarp.Client
