import Runewarp.Client.ControllerProgress

/-!
# Worker failures are reported

A worker that returns an error takes the whole Client down: `run` takes its completion,
requests shutdown, drains the other workers and returns the error.  A completion counts
only as long as the slot is the worker's own, and applies come before completions.  An
apply that comes to the address of a worker that has exited and not been taken drops its
slot and spawns another worker, and the completion, stale by then, is dropped with the
error in it.

`FailuresTaken` rules this out, and `failure_reported` says that no failure is lost
otherwise.
-/

namespace Runewarp.Client

/-- An error has been taken. -/
def RunState.Failing : RunState → Prop
  | .draining firstError => firstError ≠ none
  | .returned result => ∃ e, result = .error e
  | .selecting | .revising _ _ | .reAdopting _ _ _ | .adding _ _ => False

theorem RunState.Failing.leaving {run : RunState} (h : run.Failing) : run.Leaving := by
  cases run with
  | draining | returned => trivial
  | _ => exact h.elim

namespace AddressController

variable {s t : AddressController} {action : Action}

/-! ## The condition -/

/-- The assigned address a step of an apply comes to. -/
def visiting (s : AddressController) : Action → Option ServerAddress
  | .visit address =>
    match s.run with
    | .revising _ desired => if address ∈ desired then some address else none
    | _ => none
  | .addNext =>
    match s.run with
    | .adding (address :: _) _ => some address
    | _ => none
  | _ => none

/-- An apply does not come to the slot of a worker that has exited with an error. -/
def FailuresTaken (s : AddressController) (action : Action) : Prop :=
  ∀ a ∈ s.visiting action, ∀ w ∈ s.slotWorker a, w.isLive = false → ¬ w.Failed

instance (s : AddressController) (action : Action) : Decidable (s.FailuresTaken action) :=
  inferInstanceAs (Decidable (∀ a ∈ _, _))

/-! ## The invariant -/

/-- The completions of failed workers that have not been taken count. -/
def FailuresCount (s : AddressController) : Prop :=
  ∀ (i : Nat) (w : AddressWorker), i ∈ s.running → s.tasks[i]? = some w → w.Failed →
    ∃ slot, s.workers.lookup w.address = some slot ∧ slot.task = i

structure Accountable (s : AddressController) : Prop where
  tracked : s.Tracked
  current : s.FailuresCount
  taken : ∀ (i : Nat) (w : AddressWorker), i ∉ s.running → s.tasks[i]? = some w → w.Failed →
    s.run.Failing
  drains : s.Drains

theorem accountable_start (duration : Nat) : (start duration).Accountable where
  tracked := tracked_start duration
  current := by simp [start, FailuresCount]
  taken := by simp [start]
  drains := drains_start duration

variable {i : Nat} {w : AddressWorker} {a : ServerAddress}

/-- The slot of `a` is the one a failed worker for `a` is awaited with. -/
theorem Accountable.slotWorker_of_failed (h : s.Accountable) (hi : i ∈ s.running)
    (hw : s.tasks[i]? = some w) (hf : w.Failed) : s.slotWorker w.address = some w := by
  obtain ⟨slot, hs, rfl⟩ := h.current i w hi hw hf
  simp [AddressController.slotWorker, hs, hw]

theorem FailuresCount.removeSlot (h : s.FailuresCount)
    (ha : ∀ (i : Nat) (w : AddressWorker), i ∈ s.running → s.tasks[i]? = some w → w.Failed →
      w.address ≠ a) : (s.removeSlot a).FailuresCount := by
  intro i w hi hw hf
  obtain ⟨slot, hs, ht⟩ := h i w hi hw hf
  exact ⟨slot, (AList.lookup_erase_ne (ha i w hi hw hf)).trans hs, ht⟩

theorem FailuresCount.spawnWorker (h : s.FailuresCount) (hn : s.workers.lookup a = none) :
    (s.spawnWorker a).FailuresCount := by
  intro i w hi hw hf
  rcases getElem?_spawn hw with hw | ⟨rfl, rfl⟩
  · have hlt := (List.getElem?_eq_some_iff.mp hw).1
    have hr : i ∈ s.running := by
      rcases List.mem_append.mp hi with hi | hi
      · exact hi
      · simp only [List.mem_singleton] at hi
        omega
    obtain ⟨slot, hs, ht⟩ := h i w hr hw hf
    have hne : w.address ≠ a := by
      rintro rfl
      simp [hs] at hn
    exact ⟨slot, (AList.lookup_insert_ne hne).trans hs, ht⟩
  · obtain ⟨e, he⟩ := hf
    cases he

/-- The slot an apply drops is not the one of a failed worker. -/
theorem Accountable.address_ne (h : s.Accountable) (hok : s.FailuresTaken action)
    (hv : s.visiting action = some a) (hd : ∀ w, s.slotWorker a = some w → w.isLive = false)
    (hi : i ∈ s.running) (hw : s.tasks[i]? = some w) (hf : w.Failed) : w.address ≠ a := by
  rintro rfl
  have hs := h.slotWorker_of_failed hi hw hf
  exact hok _ hv w hs (hd w hs) hf

/-- The slot that goes with a completion is not the one of another failed worker. -/
theorem Accountable.yielded_current (h : s.Accountable) {r : Except String Unit}
    (hy : s.Yields i w r) (hc : s.isCurrent w = true) : (s.yielded i w).FailuresCount := by
  obtain ⟨current, hcu, rfl⟩ := h.tracked.slot_of_current hy.worker hc
  refine FailuresCount.removeSlot (s := { s with running := s.running.erase current.task }) ?_ ?_
  · intro j v hj hv hf
    exact h.current j v (List.mem_of_mem_erase hj) hv hf
  · intro j v hj hv hf ha
    have hj' := (h.tracked.nodup.mem_erase_iff.mp hj)
    obtain ⟨slot, hs, rfl⟩ := h.current j v hj'.2 hv hf
    rw [ha, hcu] at hs
    exact hj'.1 (congrArg WorkerSlot.task (Option.some.inj hs).symm)

theorem Accountable.current_of_move (h : s.Accountable) (hok : s.FailuresTaken action)
    (hm : Move s action t) : t.FailuresCount := by
  cases hm with
  | works hw hs =>
    intro j v hj hv hf
    simp only [getElem?_set_of_some hw] at hv
    split at hv
    next hij =>
      cases hv
      subst hij
      rw [hs.address_eq]
      -- A worker that held its receivers had a slot, whatever it does now.
      cases hl : AddressWorker.isLive _ with
      | true => exact h.tracked.live _ _ hw hl
      | false => exact h.current _ _ hj hw (hs.failed_of_not_isLive hl hf)
    next => exact h.current j v hj hv hf
  | retires | reAdopts =>
    intro j v hj hv hf
    obtain ⟨u, hu, hp, ha⟩ := task_of_sendIntent hv
    obtain ⟨e, he⟩ := hf
    obtain ⟨slot, hsl, ht⟩ := h.current j u hj hu ⟨e, hp ▸ he⟩
    exact ⟨slot, ha ▸ hsl, ht⟩
  | @discards _ _ a _ hr hd hw hde =>
    have hg : ∀ v, s.slotWorker a = some v → v.isLive = false := by
      intro v hv
      cases hw.symm.trans hv
      exact hde
    have hre := FailuresCount.removeSlot h.current fun i w hi hw hf =>
      h.address_ne hok (by simp [visiting, hr, hd]) hg hi hw hf
    exact hre
  | respawns hr _ hde =>
    have hg := dead_of_workerIsLive hde
    have hre := FailuresCount.removeSlot h.current fun i w hi hw hf =>
      h.address_ne hok (by simp [visiting, hr]) hg hi hw hf
    exact hre.spawnWorker lookup_removeSlot_self
  | spawns _ hn => exact h.current.spawnWorker hn
  | yieldsStale => exact fun j v hj hv hf => h.current j v (List.mem_of_mem_erase hj) hv hf
  | yieldsOk hy hc | yieldsError hy hc | yieldsLaterError hy hc => exact h.yielded_current hy hc
  | _ => exact h.current

/-- A failed worker after a step had failed before it, or is still awaited. -/
theorem Accountable.failed_before (h : s.Accountable) (hm : Move s action t) {j : Nat}
    {v : AddressWorker} (hj : j ∉ s.running) (hv : t.tasks[j]? = some v) (hf : v.Failed) :
    ∃ u, s.tasks[j]? = some u ∧ u.Failed := by
  rcases task_of_move hm hv with ⟨u, hu, hp | hs⟩ | ⟨-, hn⟩
  · obtain ⟨e, he⟩ := hf
    exact ⟨u, hu, e, hp ▸ he⟩
  · obtain ⟨r, hr⟩ := h.tracked.finished j u hu hj
    exact (hs.not_finished hr).elim
  · obtain ⟨e, he⟩ := hf
    rw [hn] at he
    cases he

theorem Accountable.taken_of_move (h : s.Accountable) (hm : Move s action t) :
    ∀ (i : Nat) (w : AddressWorker), i ∉ t.running → t.tasks[i]? = some w → w.Failed →
      t.run.Failing := by
  intro j v hj hv hf
  have hk : j ∉ s.running → s.run.Failing := by
    intro hjs
    obtain ⟨u, hu, hfu⟩ := h.failed_before hm hjs hv hf
    exact h.taken j u hjs hu hfu
  cases hm with
  | receives hr | receivesClosed hr | passes hr | finds hr | discards hr | retires hr
  | reAdopts hr | beginsAdding hr | skips hr | acknowledges hr | seesShutdown hr =>
    have hfa := hk hj
    rw [hr] at hfa
    exact hfa.elim
  | respawns hr | spawns hr =>
    have hfa := hk fun hjs => hj (List.mem_append_left _ hjs)
    rw [hr] at hfa
    exact hfa.elim
  | @yieldsStale i _ _ hy hc =>
    rcases eq_or_ne j i with rfl | hji
    · cases hy.worker.symm.trans hv
      obtain ⟨slot, hs, ht⟩ := h.current j _ hy.running hy.worker hf
      exact (h.tracked.task_ne_of_stale hy.worker hc hs ht).elim
    · exact hk fun hjs => hj ((List.mem_erase_of_ne hji).mpr hjs)
  | @yieldsOk i _ hy =>
    rcases eq_or_ne j i with rfl | hji
    · cases hy.worker.symm.trans hv
      obtain ⟨e, he⟩ := hf
      rw [hy.finished] at he
      cases he
    · exact hk fun hjs => hj ((List.mem_erase_of_ne hji).mpr hjs)
  | yieldsError | yieldsLaterError => simp [RunState.Failing]
  | @returns firstError hr =>
    have hfa := hk hj
    rw [hr] at hfa
    cases firstError with
    | none => exact (hfa rfl).elim
    | some e => exact ⟨e, rfl⟩
  | _ => exact hk hj

theorem Accountable.move (h : s.Accountable) (hs : s.Unsaturated action)
    (hok : s.FailuresTaken action) (hm : Move s action t) : t.Accountable where
  tracked := h.tracked.move hs hm
  current := h.current_of_move hok hm
  taken := h.taken_of_move hm
  drains := h.drains.move hm

/-! ## Failures are reported -/

/-- The way a failure takes. -/
structure FailureReported (s : AddressController) : Prop where
  /-- `run` comes to the completion of a failed worker. -/
  comes : ∀ (i : Nat) (w : AddressWorker) e, s.tasks[i]? = some w →
    w.phase = .finished (.error e) → system.Settles NoApply Serves (Taken i) s.stepsLeft s
  /-- With the completion taken, it drains. -/
  leaves : ∀ (i : Nat) (w : AddressWorker), s.tasks[i]? = some w → w.Failed → s.Taken i →
    s.run.Leaving
  /-- The drain ends. -/
  ends : s.run.Leaving → system.Settles Unsaturated Own Returned s.rank s
  /-- What is returned then is an error. -/
  reports : ∀ r, s.run = .returned r → ∀ w ∈ s.tasks, w.Failed → ∃ e, r = .error e

/-- The conditions on the steps of a run. -/
def Orderly (s : AddressController) (action : Action) : Prop :=
  s.Unsaturated action ∧ s.FailuresTaken action

instance (s : AddressController) (action : Action) : Decidable (s.Orderly action) :=
  inferInstanceAs (Decidable (_ ∧ _))

/-- No failure is lost if no apply comes to the slot of a worker that has exited with an
error. -/
theorem failure_reported {duration : Nat} (hrun : system.Steps Orderly (start duration) s) :
    s.FailureReported := by
  have h : s.Accountable := by
    refine hrun.invariant (I := Accountable) ?_ (accountable_start duration)
    intro s a t h hok hs
    exact h.move hok.1 hok.2 (move_of_step hs)
  constructor
  · intro i w e hw hp
    exact (taking_progress i).settles ⟨w, _, hw, hp⟩ le_rfl
  · intro i w hw hf ht
    rcases ht with hi | hl
    · exact (h.taken i w hi hw hf).leaving
    · exact hl
  · intro hl
    exact draining_progress.settles ⟨h.tracked, h.drains, hl⟩ le_rfl
  · intro r hr w hw hf
    obtain ⟨i, hi⟩ := List.mem_iff_getElem?.mp hw
    have hfa : s.run.Failing := h.taken i w (by simp [h.drains.drained r hr]) hi hf
    rw [hr] at hfa
    exact hfa

/-- The Client identity of one worker cannot be used; the other worker is drained. -/
theorem failure_reported_after_drain :
    ∃ s, system.Steps Orderly (start 10) s ∧ s.run = .returned (.error "bad key") ∧
      s.FailureReported :=
  Lts.exists_steps_and
    [.enqueue [⟨⟨"relay.example.test"⟩, 443⟩, ⟨⟨"relay.example.test"⟩, 444⟩], .receive,
      .beginAdding, .addNext, .addNext, .acknowledge,
      .worker 0 .firstPoll, .worker 0 .readShutdown, .worker 0 .readIntent,
      .worker 0 (.established (.fatalLocalMaterial "bad key")), .worker 0 .readIntent,
      .worker 0 .dropReceivers, .worker 0 .finish, .reap 0,
      .worker 1 .firstPoll, .worker 1 .readShutdown, .worker 1 .dropReceivers,
      .worker 1 .finish, .reap 1, .drained]
    (by decide) fun _ hs => failure_reported hs

/-- The worker exits with an error; before its completion is taken the same assignment
is applied again, and `add` replaces the slot.  The completion is stale by then, its
error is dropped, and `run` returns `Ok`. -/
theorem failure_lost_to_apply :
    ∃ s, system.Steps Unsaturated (start 10) s ∧ s.run = .returned (.ok ()) ∧
      ∃ w ∈ s.tasks, w.phase = .finished (.error "bad key") :=
  Lts.exists_steps
    [.enqueue [⟨⟨"relay.example.test"⟩, 443⟩], .receive, .beginAdding, .addNext, .acknowledge,
      .worker 0 .firstPoll, .worker 0 .readShutdown, .worker 0 .readIntent,
      .worker 0 (.established (.fatalLocalMaterial "bad key")), .worker 0 .readIntent,
      .worker 0 .dropReceivers, .worker 0 .finish,
      .enqueue [⟨⟨"relay.example.test"⟩, 443⟩], .receive,
      .visit ⟨⟨"relay.example.test"⟩, 443⟩, .beginAdding, .addNext, .acknowledge,
      .reap 0, .beginShutdown .fast, .publishShutdown, .shutdownSeen,
      .worker 1 .firstPoll, .worker 1 .readShutdown, .worker 1 .dropReceivers,
      .worker 1 .finish, .reap 1, .drained]
    (by decide)

end AddressController

end Runewarp.Client
