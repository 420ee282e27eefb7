import Runewarp.Client.AddressMaintenance

/-!
# Backoff and retirement

A worker that waits out a retry delay listens for changes of its intent, so that an
address that is removed does not wait for the delay.  It reads the intent, and then
`wait_for_retry_delay` makes a receiver that has seen everything sent so far.  A Retire
that is sent between the two is seen by neither: the worker sleeps, and nothing is there
to wake it but the end of the delay.

`RetiresAwake` rules this out, and `retire_wakes_backoff` says that a Retire at any other
time is one the receiver has not seen.
-/

namespace Runewarp.Client

namespace AddressWorker

variable {env : Surroundings} {w w' : AddressWorker} {event : Event} {seen : Nat}

/-- The worker sleeps with intent Retire, and its receiver has nothing to report. -/
def SleepsRetired (w : AddressWorker) : Prop :=
  w.intent = .retire ∧ w.phase = .sleeping w.maintenance.version

instance (w : AddressWorker) : Decidable w.SleepsRetired := inferInstanceAs (Decidable (_ ∧ _))

/-! ## The way into the backoff -/

theorem Step.maintenance_eq (h : Step env w w') : w'.maintenance = w.maintenance := by
  cases h <;> rfl

/-- Where a step leads, as far as the backoff is concerned. -/
inductive Enters (w : AddressWorker) : WorkerPhase → Prop where
  /-- The intent was read. -/
  | retrying : w.intent = .maintain → Enters w .retrying
  /-- The receiver was made. -/
  | sleeping : w.phase = .retrying → Enters w (.sleeping w.maintenance.version)
  | other : p ≠ .retrying → (∀ seen, p ≠ .sleeping seen) → Enters w p

theorem maintain_of_readIntent {next : AfterRead} (hp : w.phase = .reading next)
    (h : w.step env event = some w') (hd : w'.decided = false) : w.intent = .maintain := by
  by_contra hne
  have hr : w.intent = .retire := by
    cases hi : w.intent with
    | maintain => exact (hne hi).elim
    | retire => rfl
  cases event with
  | readIntent =>
    simp only [step, hp, hr, if_true] at h
    cases h
    cases hd
  | panic message =>
    simp only [step, hp] at h
    split at h
    · cases h
    · cases h
      cases hd
  | _ =>
    simp only [step, hp] at h
    cases h

theorem seen_of_subscribe (hp : w.phase = .retrying) (h : w.step env event = some w')
    (hs : w'.phase = .sleeping seen) : seen = w.maintenance.version := by
  cases event with
  | subscribe =>
    simp only [step, hp] at h
    cases h
    cases hs
    rfl
  | panic message =>
    simp only [step, hp] at h
    split at h
    · cases h
    · cases h
      cases hs
  | _ =>
    simp only [step, hp] at h
    cases h

theorem enters_of_step (h : w.step env event = some w') : Enters w w'.phase := by
  have hs := step_of_eq h
  cases hs with
  | @advances p n ha =>
    generalize hw : w.phase = q at ha
    cases ha with
    | retry | reconnect => exact .retrying (maintain_of_readIntent hw h rfl)
    | subscribe =>
      obtain rfl := seen_of_subscribe hw h rfl
      exact .sleeping hw
    | _ => exact .other (by simp) (by simp)
  | _ => exact .other (by simp [exit, goTo]) (by simp [exit, goTo])

/-! ## What a worker in backoff has seen -/

/-- The worker is on its way into the backoff with intent Maintain, or sleeps with a
receiver that has not seen a Retire. -/
structure Wakeable (w : AddressWorker) : Prop where
  retrying : w.phase = .retrying → w.intent = .maintain
  seen : ∀ seen, w.phase = .sleeping seen → seen ≤ w.maintenance.version
  sleeping : ∀ seen, w.phase = .sleeping seen → w.intent = .retire → seen ≠ w.maintenance.version

theorem Wakeable.step (h : w.Wakeable) (hs : w.step env event = some w') : w'.Wakeable := by
  have he := enters_of_step hs
  have hma := (step_of_eq hs).maintenance_eq
  have hi : w'.intent = w.intent := (step_of_eq hs).intent_eq
  generalize hp : w'.phase = p at he
  cases he with
  | retrying hm =>
    exact ⟨fun _ => hi.trans hm, by simp [hp], by simp [hp]⟩
  | sleeping hr =>
    have hm : w'.intent = .maintain := hi.trans (h.retrying hr)
    exact ⟨by simp [hp], by simp [hp, hma], by simp [hm]⟩
  | other hne hne' =>
    refine ⟨fun h' => (hne (hp.symm.trans h')).elim, fun seen h' => ?_, fun seen h' => ?_⟩
    · exact (hne' seen (hp.symm.trans h')).elim
    · exact (hne' seen (hp.symm.trans h')).elim

/-- A send that finds the worker before or in its sleep. -/
theorem Wakeable.sendIntent (h : w.Wakeable) {intent : MaintenanceIntent}
    (hre : intent = .retire → w.phase ≠ .retrying) : (w.sendIntent intent).Wakeable := by
  obtain ⟨hr, hs, hsl⟩ := h
  have hl : ∀ seen, w.phase = .sleeping seen → w.isLive = true := by
    intro seen hp
    simp [isLive, hp, WorkerPhase.holdsReceivers]
  refine ⟨fun hp => ?_, fun seen hp => ?_, fun seen hp _ => ?_⟩
  · cases intent with
    | maintain => simp [AddressController.intent_sendIntent, hr hp]
    | retire => exact (hre rfl hp).elim
  · have hle := hs seen hp
    simp only [AddressWorker.sendIntent, hl seen hp, Watch.send, if_true]
    omega
  · have hle := hs seen hp
    simp only [AddressWorker.sendIntent, hl seen hp, Watch.send, if_true]
    omega

end AddressWorker

/-! ## The controller -/

namespace AddressController

variable {s t : AddressController} {action : Action}

/-- The worker of the slot that a visit takes out of the assignment. -/
def retired (s : AddressController) : Action → Option AddressWorker
  | .visit address =>
    match s.run with
    | .revising _ desired => if address ∈ desired then none else s.slotWorker address
    | _ => none
  | _ => none

/-- No address is taken out of the assignment while its worker is between its read of the
intent and the subscription of `wait_for_retry_delay`. -/
def RetiresAwake (s : AddressController) (a : Action) : Prop :=
  ∀ w ∈ s.retired a, w.phase ≠ .retrying

instance (s : AddressController) (a : Action) : Decidable (s.RetiresAwake a) :=
  inferInstanceAs (Decidable (∀ w ∈ _, _))

theorem wakeable_sendIntent {a : ServerAddress} {intent : MaintenanceIntent}
    (h : ∀ w ∈ s.tasks, w.Wakeable)
    (hr : intent = .retire → ∀ w ∈ s.slotWorker a, w.phase ≠ .retrying) :
    ∀ w ∈ (s.sendIntent a intent).tasks, w.Wakeable := by
  cases hw : s.slotWorker a with
  | none =>
    rw [sendIntent_eq_self hw]
    exact h
  | some w =>
    obtain ⟨slot, -, ht, heq⟩ := sendIntent_eq hw intent
    rw [heq]
    intro v hv
    rcases List.mem_or_eq_of_mem_set hv with hv | rfl
    · exact h v hv
    · exact (h w (List.mem_of_getElem? ht)).sendIntent fun hi => hr hi w hw

theorem wakeable_spawn (address : ServerAddress) (generation : Nat) :
    (AddressWorker.spawn address generation).Wakeable :=
  ⟨by simp [AddressWorker.spawn], by simp [AddressWorker.spawn], by simp [AddressWorker.spawn]⟩

theorem wakeable_step (h : ∀ w ∈ s.tasks, w.Wakeable) (hok : s.RetiresAwake action)
    (hs : system.step s action = some t) : ∀ w ∈ t.tasks, w.Wakeable := by
  have hsp : ∀ (tasks : List AddressWorker) (address : ServerAddress) (generation : Nat),
      (∀ w ∈ tasks, w.Wakeable) →
        ∀ w ∈ tasks ++ [AddressWorker.spawn address generation], w.Wakeable := by
    intro tasks address generation ht w hw
    rcases List.mem_append.mp hw with hw | hw
    · exact ht w hw
    · exact List.mem_singleton.mp hw ▸ wakeable_spawn address generation
  have hm := move_of_step hs
  cases hm with
  | @works i w w' event hw _ =>
    -- What `Move` keeps of a worker's step says nothing about what its receiver saw.
    simp only [system, AddressController.step, hw] at hs
    obtain ⟨v, hv, heq⟩ := Option.map_eq_some_iff.mp hs
    rw [← heq]
    intro u hu
    rcases List.mem_or_eq_of_mem_set hu with hu | rfl
    · exact h u hu
    · exact (h w (List.mem_of_getElem? hw)).step hv
  | retires hr ha =>
    refine wakeable_sendIntent h fun _ w hw => hok w ?_
    simpa [retired, hr, ha] using hw
  | reAdopts => exact wakeable_sendIntent h fun hi => by cases hi
  | respawns | spawns => exact hsp _ _ _ h
  | _ => exact h

/-- No worker sleeps through a Retire: one that sleeps with that intent can take the
branch of its select that wakes it. -/
def WakesRetired (s : AddressController) : Prop :=
  ∀ i w, s.tasks[i]? = some w → ¬ w.SleepsRetired ∧
    ∀ seen, w.phase = .sleeping seen → w.intent = .retire →
      (system.step s (.worker i .changedBranch)).isSome = true

theorem wakesRetired_of_wakeable (h : ∀ w ∈ s.tasks, w.Wakeable) : s.WakesRetired := by
  intro i w hw
  have hwa := h w (List.mem_of_getElem? hw)
  refine ⟨fun hs => hwa.sleeping _ hs.2 hs.1 rfl, fun seen hp hr => ?_⟩
  have hne := hwa.sleeping seen hp hr
  simp [system, AddressController.step, hw, AddressWorker.step, hp, Watch.changed, hne]

/-- Over any run in which no address is removed within the gap, a removal wakes a worker
that sleeps out its delay. -/
theorem retire_wakes_backoff {duration : Nat}
    (hrun : system.Steps RetiresAwake (start duration) s) : s.WakesRetired := by
  have h : ∀ w ∈ s.tasks, w.Wakeable := by
    refine hrun.invariant (I := fun s => ∀ w ∈ s.tasks, w.Wakeable) ?_ (by simp [start])
    intro s a t hi hok hs
    exact wakeable_step hi hok hs
  exact wakesRetired_of_wakeable h

/-- The address is removed while its worker sleeps. -/
theorem retire_wakes_backoff_of_sleeping :
    ∃ s, system.Steps RetiresAwake (start 10) s ∧
      (∃ w ∈ s.tasks, w.intent = .retire ∧ w.phase = .sleeping 0) ∧ s.WakesRetired :=
  Lts.exists_steps_and
    [.enqueue [sampleAddress], .receive, .beginAdding, .addNext, .acknowledge,
      .worker 0 .firstPoll, .worker 0 .readShutdown, .worker 0 .readIntent,
      .worker 0 (.established .retryable), .worker 0 .readIntent, .worker 0 .subscribe,
      .enqueue [], .receive, .visit sampleAddress]
    (by decide) fun _ hs => retire_wakes_backoff hs

/-- The address is removed after the worker has read its intent and before it subscribes.
The worker sleeps, and only the end of the delay or a panic takes it on. -/
theorem backoff_sleeps_through_retire :
    ∃ s, system.Reaches (start 10) s ∧ s.Calm ∧ s.run = .selecting ∧ s.applied = [] ∧
      ∃ w, s.tasks[0]? = some w ∧ w.SleepsRetired ∧
        system.step s (.worker 0 .changedBranch) = none ∧
        system.step s (.worker 0 .shutdownBranch) = none := by
  have he : ∃ s ∈ system.exec (start 10)
      [.enqueue [sampleAddress], .receive, .beginAdding, .addNext, .acknowledge,
        .worker 0 .firstPoll, .worker 0 .readShutdown, .worker 0 .readIntent,
        .worker 0 (.established .retryable), .worker 0 .readIntent,
        .enqueue [], .receive, .visit sampleAddress, .beginAdding, .acknowledge,
        .worker 0 .subscribe],
      s.Calm ∧ s.run = .selecting ∧ s.applied = [] ∧
      ∃ w ∈ s.tasks[0]?, w.SleepsRetired ∧
        system.step s (.worker 0 .changedBranch) = none ∧
        system.step s (.worker 0 .shutdownBranch) = none := by
    decide
  obtain ⟨s, hs, hst⟩ := he
  exact ⟨s, .of_exec hs, hst⟩

end AddressController

end Runewarp.Client
