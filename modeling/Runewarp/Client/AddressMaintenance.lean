import Runewarp.Client.ControllerSteps

/-!
# The assignment is maintained

After an apply every assigned address is to have a slot with intent Maintain and a
worker that goes on.  The controller judges a worker by its receivers, and a worker
that has read Retire holds them until it has returned.  An apply in between re-adopts
a worker that is on its way out: the intent it writes is read by nobody, and when the
worker's completion is taken the address has no slot.

`ReAdoptsUndecided` rules this out, and `assignment_maintained` says that nothing else
takes an assigned address out of maintenance while no worker fails and nobody asks for
shutdown.
-/

namespace Runewarp.Client.AddressController

variable {s t : AddressController} {action : Action}

/-- No shutdown was requested and no worker has failed. -/
structure Calm (s : AddressController) : Prop where
  orderly : s.orderly.mode = none
  shutdown : s.shutdownRequested = false
  unfailed : ∀ w ∈ s.tasks, ¬ w.Failed

instance (s : AddressController) : Decidable s.Calm :=
  decidable_of_iff
    (s.orderly.mode = none ∧ s.shutdownRequested = false ∧ ∀ w ∈ s.tasks, ¬ w.Failed)
    ⟨fun h => ⟨h.1, h.2.1, h.2.2⟩, fun h => ⟨h.orderly, h.shutdown, h.unfailed⟩⟩

theorem calm_of_move (hm : Move s action t) (h : t.Calm) : s.Calm := by
  have ho : s.orderly.mode = none := by
    by_contra hmo
    exact mode_ne_none_of_move hm hmo h.orderly
  refine ⟨ho, ?_, ?_⟩
  · cases hm with
    | publishes | receivesClosed | yieldsError => cases h.shutdown
    | _ => exact h.shutdown
  · intro w hw hf
    obtain ⟨j, hj⟩ := List.mem_iff_getElem?.mp hw
    obtain ⟨v, hv, hs⟩ := task_kept_of_move hm hj
    exact h.unfailed v (List.mem_of_getElem? hv) (hs.failed hf)

/-! ## The condition -/

/-- The worker whose slot `re_adopt` is about to send Maintain to. -/
def reAdopted (s : AddressController) : Option AddressWorker :=
  match s.run with
  | .reAdopting address _ _ => s.slotWorker address
  | _ => none

/-- `re_adopt` does not send to a worker that has decided to exit and still holds its
receivers. -/
def ReAdoptsUndecided (s : AddressController) (a : Action) : Prop :=
  a = .reAdopt → ∀ w ∈ s.reAdopted, w.isLive = true → w.decided = false

instance (s : AddressController) (a : Action) : Decidable (s.ReAdoptsUndecided a) :=
  inferInstanceAs (Decidable (_ → _))

/-! ## The invariant -/

/-- The slot for `a`, if there is one, is maintained or its worker is gone. -/
def Settled (s : AddressController) (a : ServerAddress) : Prop :=
  ∀ w, s.slotWorker a = some w → w.intent = .maintain ∨ w.isLive = false

/-- There is a slot for `a`, and it is maintained. -/
def Held (s : AddressController) (a : ServerAddress) : Prop :=
  ∃ w, s.slotWorker a = some w ∧ w.intent = .maintain

/-- How far the last apply has come. -/
def Assigned (s : AddressController) : RunState → Prop
  | .selecting => ∀ a ∈ s.applied, s.Held a
  | .revising todo desired => ∀ a ∈ desired, a ∉ todo → s.Settled a
  | .reAdopting b todo desired => ∀ a ∈ desired, a ≠ b → a ∉ todo → s.Settled a
  | .adding todo desired => (∀ a ∈ desired, s.Settled a) ∧ ∀ a ∈ desired, a ∉ todo → s.Held a
  | .draining _ | .returned _ => True

structure Maintained (s : AddressController) : Prop where
  tracked : s.Tracked
  /-- Connection runs return `Ok` only after shutdown has started. -/
  runs : s.orderly.mode = none → ∀ w ∈ s.tasks, ¬ w.RunOver
  undecided : s.Calm → ∀ a w, s.slotWorker a = some w → w.intent = .maintain →
    w.decided = false
  assigned : s.Calm → s.Assigned s.run

theorem maintained_start (duration : Nat) : (start duration).Maintained where
  tracked := tracked_start duration
  runs := by simp [start]
  undecided := by simp [start, AddressController.slotWorker]
  assigned := by simp [start, Assigned]

theorem runs_of_move (hm : Move s action t)
    (h : s.orderly.mode = none → ∀ w ∈ s.tasks, ¬ w.RunOver) :
    t.orderly.mode = none → ∀ w ∈ t.tasks, ¬ w.RunOver := by
  intro hmo v hv hov
  have hs : s.orderly.mode = none := by
    by_contra hne
    exact mode_ne_none_of_move hm hne hmo
  obtain ⟨j, hj⟩ := List.mem_iff_getElem?.mp hv
  rcases task_of_move hm hj with ⟨u, hu, hp | hse⟩ | ⟨-, hn⟩
  · have hu' := h hs u (List.mem_of_getElem? hu)
    simp only [AddressWorker.RunOver, hp] at hov
    exact hu' hov
  · rcases hse.runOver hov with ho | hst
    · exact h hs u (List.mem_of_getElem? hu) ho
    · simp [surroundings, hs] at hst
  · simp [AddressWorker.RunOver, hn] at hov

/-! ## Workers that go on -/

variable {a : ServerAddress} {r : RunState}

/-- While all is calm, the worker of a maintained slot does not decide to exit. -/
theorem Maintained.step_undecided (h : s.Maintained) (hs : s.Calm) {slot : WorkerSlot}
    {u v : AddressWorker} (hsl : s.workers.lookup a = some slot) (hu : s.slotWorker a = some u)
    (ha : u.address = a) (hst : u.Step (s.surroundings slot.task u) v) (hv : ¬ v.Failed)
    (hi : v.intent = .maintain) : v.decided = false := by
  subst ha
  have hm : u.intent = .maintain := hst.intent_eq.symm.trans hi
  have hb := h.undecided hs _ u hu hm
  have hme : u ∈ s.tasks := by
    obtain ⟨slot', -, ht⟩ := Option.bind_eq_some_iff.mp hu
    exact List.mem_of_getElem? ht
  by_contra hde
  rcases hst.decided_cases (by simpa using hde) with hd | hf | hq
  · simp [hb] at hd
  · exact hv hf
  · rcases hq with hsh | hr | hdr | ho
    · simp [surroundings, hs.shutdown] at hsh
    · simp [hm] at hr
    · simp [surroundings, hsl] at hdr
    · exact h.runs hs.orderly u hme (.inr (.inr ho))

theorem Maintained.undecided_of_move (h : s.Maintained) (hok : s.ReAdoptsUndecided action)
    (hm : Move s action t) (ht : t.Calm) :
    ∀ a w, t.slotWorker a = some w → w.intent = .maintain → w.decided = false := by
  have hs := calm_of_move hm ht
  have hb := h.undecided hs
  intro a v hv hi
  cases hm with
  | works hw hst =>
    rcases slotWorker_setTask hw hv with hv | ⟨rfl, hu, slot, hsl, rfl⟩
    · exact hb a v hv hi
    · obtain ⟨-, w', hw', ha, -⟩ := h.tracked.slot a slot hsl
      cases hw.symm.trans hw'
      have hme : v ∈ (s.tasks.set slot.task v) :=
        List.mem_of_getElem? (i := slot.task) (by simp [getElem?_set_of_some hw])
      exact h.step_undecided hs hsl hu ha hst (ht.unfailed v hme) hi
  | discards | yieldsOk | yieldsError | yieldsLaterError =>
    exact hb a v (slotWorker_of_removeSlot hv).2 hi
  | @respawns b _ _ _ _ hd =>
    have hre := h.tracked.removeSlot (dead_of_workerIsLive hd)
    rcases eq_or_ne a b with rfl | hab
    · cases slotWorker_spawnWorker_self.symm.trans hv
      rfl
    · have hv' := (hre.slotWorker_spawnWorker_ne hab).symm.trans hv
      exact hb a v (slotWorker_of_removeSlot hv').2 hi
  | @spawns b =>
    rcases eq_or_ne a b with rfl | hab
    · cases slotWorker_spawnWorker_self.symm.trans hv
      rfl
    · exact hb a v ((h.tracked.slotWorker_spawnWorker_ne hab).symm.trans hv) hi
  | retires =>
    rcases h.tracked.slotWorker_of_sendIntent hv with ⟨-, hv⟩ | ⟨rfl, u, hu, rfl⟩
    · exact hb a v hv hi
    · rw [intent_sendIntent] at hi
      split at hi
      next => cases hi
      next => exact hb _ u hu hi
  | reAdopts hr =>
    rcases h.tracked.slotWorker_of_sendIntent hv with ⟨-, hv⟩ | ⟨rfl, u, hu, rfl⟩
    · exact hb a v hv hi
    · rw [intent_sendIntent] at hi
      split at hi
      next hl => exact hok rfl u (by simp [reAdopted, hr, hu]) hl
      next => exact hb _ u hu hi
  | _ => exact hb a v hv hi

/-! ## How an apply proceeds -/

theorem Held.settled (h : s.Held a) : s.Settled a := by
  intro w hw
  obtain ⟨v, hv, hi⟩ := h
  cases hv.symm.trans hw
  exact .inl hi

theorem Assigned.mono (h : s.Assigned r) (hap : t.applied = s.applied)
    (hs : ∀ a, s.Settled a → t.Settled a) (hh : ∀ a, s.Held a → t.Held a) : t.Assigned r := by
  match r with
  | .selecting => exact fun a ha => hh a (h a (hap ▸ ha))
  | .revising _ _ => exact fun a ha hn => hs a (h a ha hn)
  | .reAdopting _ _ _ => exact fun a ha hb hn => hs a (h a ha hb hn)
  | .adding _ _ => exact ⟨fun a ha => hs a (h.1 a ha), fun a ha hn => hh a (h.2 a ha hn)⟩
  | .draining _ | .returned _ => trivial

/-- A slot is dropped whose worker had decided to exit. -/
theorem Maintained.assigned_removeSlot (h : s.Maintained) (hs : s.Calm) (hr : s.Assigned r)
    (hd : ∀ w, s.slotWorker a = some w → w.decided = true) : (s.removeSlot a).Assigned r := by
  refine hr.mono rfl ?_ ?_
  · intro b hb w hw
    exact hb w (slotWorker_of_removeSlot hw).2
  · rintro b ⟨w, hw, hi⟩
    have hba : b ≠ a := by
      rintro rfl
      have hg := h.undecided hs b w hw hi
      simp [hd w hw] at hg
    exact ⟨w, (slotWorker_removeSlot_ne hba).trans hw, hi⟩


theorem Assigned.setTask {i : Nat} {w w' : AddressWorker} (hr : s.Assigned r)
    (hw : s.tasks[i]? = some w) (hs : w.Step (s.surroundings i w) w') :
    ({ s with tasks := s.tasks.set i w' } : AddressController).Assigned r := by
  refine hr.mono rfl ?_ ?_
  · intro a ha v hv
    rcases slotWorker_setTask hw hv with hv | ⟨rfl, hu, -⟩
    · exact ha v hv
    · rcases ha w hu with hi | hd
      · exact .inl (hs.intent_eq.trans hi)
      · refine .inr ?_
        by_contra hl
        simp [hs.isLive_of_isLive (by simpa using hl)] at hd
  · rintro a ⟨u, hu, hi⟩
    have hin : s.maintenanceIntent a = some .maintain := by simp [maintenanceIntent, hu, hi]
    rw [← maintenanceIntent_setTask hw hs.intent_eq] at hin
    exact slotWorker_of_maintenanceIntent hin

/-- The first loop leaves `a` out of what it still has to visit. -/
theorem Assigned.visited {todo desired : List ServerAddress}
    (h : s.Assigned (.revising todo desired)) {b : ServerAddress} (hb : b ∈ desired)
    (hn : b ∉ todo.erase a) (hba : b ≠ a) : s.Settled b :=
  h b hb fun hm => hn ((List.mem_erase_of_ne hba).mpr hm)

/-- The worker whose completion counts has decided to exit. -/
theorem Tracked.decided_of_yields (h : s.Tracked) {i : Nat} {w : AddressWorker}
    {r : Except String Unit} (hy : s.Yields i w r) (hc : s.isCurrent w = true) :
    ∀ u, s.slotWorker w.address = some u → u.decided = true := by
  intro u hu
  obtain ⟨slot, hs, rfl⟩ := h.slot_of_current hy.worker hc
  have hwu : s.slotWorker w.address = some w := by
    simp [AddressController.slotWorker, hs, hy.worker]
  cases hwu.symm.trans hu
  exact AddressWorker.decided_of_phase hy.finished

/-- A worker is spawned for `a`, the next address of the second loop. -/
theorem Tracked.assigned_spawnWorker (h : s.Tracked) {todo desired : List ServerAddress}
    (hr : s.Assigned (.adding (a :: todo) desired)) :
    (s.spawnWorker a).Assigned (.adding todo desired) := by
  have hne : (s.spawnWorker a).Held a := ⟨_, slotWorker_spawnWorker_self, rfl⟩
  refine ⟨?_, ?_⟩
  · intro b hb
    rcases eq_or_ne b a with rfl | hba
    · exact hne.settled
    · exact fun w hw => hr.1 b hb w ((h.slotWorker_spawnWorker_ne hba).symm.trans hw)
  · intro b hb hn
    rcases eq_or_ne b a with rfl | hba
    · exact hne
    · obtain ⟨w, hw, hi⟩ := hr.2 b hb (by simp [hba, hn])
      exact ⟨w, (h.slotWorker_spawnWorker_ne hba).trans hw, hi⟩

theorem Maintained.assigned_of_move (h : s.Maintained) (hm : Move s action t) (hs : s.Calm) :
    t.Assigned t.run := by
  have hai := h.assigned hs
  cases hm with
  | queues | closes | begins | publishes | yieldsStale =>
    exact hai.mono rfl (fun _ => id) fun _ => id
  | works hw hst => exact hai.setTask hw hst
  | receives =>
    -- What has no slot has nothing to be visited.
    intro a _ hn w hw
    obtain ⟨slot, hsl, -⟩ := Option.bind_eq_some_iff.mp hw
    have hme : a ∈ s.workers := AList.lookup_isSome.mp (by simp [show _ = _ from hsl])
    exact (hn (AList.mem_keys.mp hme)).elim
  | @passes todo desired a hr hk =>
    rw [hr] at hai
    intro b hb hn
    rcases eq_or_ne b a with rfl | hba
    · intro w hw
      have hin : w.intent ≠ .retire := by
        intro hre
        exact hk hb (by simp [maintenanceIntent, show s.slotWorker b = some w from hw,
          hre])
      cases hi : w.intent with
      | maintain => exact .inl rfl
      | retire => exact (hin hi).elim
    · exact hai.visited hb hn hba
  | finds hr =>
    rw [hr] at hai
    exact fun b hb hba hn => hai.visited hb hn hba
  | discards hr =>
    rw [hr] at hai
    intro b hb hn w hw
    obtain ⟨hba, hw⟩ := slotWorker_of_removeSlot hw
    exact hai.visited hb hn hba w hw
  | retires hr ha =>
    rw [hr] at hai
    intro b hb hn w hw
    have hba := ne_of_mem_of_not_mem hb ha
    exact hai.visited hb hn hba w ((h.tracked.slotWorker_sendIntent_ne hba _).symm.trans hw)
  | reAdopts hr =>
    rw [hr] at hai
    intro b hb hn w hw
    rcases h.tracked.slotWorker_of_sendIntent hw with ⟨hba, hw⟩ | ⟨rfl, u, hu, rfl⟩
    · exact hai b hb hba hn w hw
    · rw [intent_sendIntent, isLive_sendIntent]
      cases u.isLive with
      | true => exact .inl rfl
      | false => exact .inr rfl
  | beginsAdding hr =>
    rw [hr] at hai
    exact ⟨fun a ha => hai a ha (by simp), fun a ha hn => (hn ha).elim⟩
  | @skips a _ _ _ hr hw hl =>
    rw [hr] at hai
    refine ⟨hai.1, fun b hb hn => ?_⟩
    rcases eq_or_ne b a with rfl | hba
    · rcases hai.1 b hb _ hw with hi | hd
      · exact ⟨_, hw, hi⟩
      · simp [hl] at hd
    · exact hai.2 b hb (by simp [hba, hn])
  | respawns hr _ hd =>
    rw [hr] at hai
    have hg := dead_of_workerIsLive hd
    refine (h.tracked.removeSlot hg).assigned_spawnWorker ?_
    exact h.assigned_removeSlot hs hai fun w hw =>
      AddressWorker.decided_of_not_isLive (hg w hw)
  | spawns hr =>
    rw [hr] at hai
    exact h.tracked.assigned_spawnWorker hai
  | acknowledges hr =>
    rw [hr] at hai
    exact fun a ha => hai.2 a ha (by simp)
  | yieldsOk hy hc =>
    have hde := h.tracked.decided_of_yields hy hc
    exact (h.assigned_removeSlot hs hai hde).mono rfl (fun _ => id) fun _ => id
  | yieldsLaterError => trivial
  | _ => trivial

theorem Maintained.move (h : s.Maintained) (hs : s.Unsaturated action)
    (hok : s.ReAdoptsUndecided action) (hm : Move s action t) : t.Maintained where
  tracked := h.tracked.move hs hm
  runs := runs_of_move hm h.runs
  undecided := h.undecided_of_move hok hm
  assigned := fun ht => h.assigned_of_move hm (calm_of_move hm ht)

/-- Every assigned address has a slot with intent Maintain, and the worker of the slot
has not decided to exit. -/
def AssignmentMaintained (s : AddressController) : Prop :=
  ∀ a ∈ s.applied, ∃ w, s.slotWorker a = some w ∧ w.intent = .maintain ∧ w.decided = false

/-- The assignment of the last apply is maintained between applies as long as all is
calm, also while another apply is queued and while completions have not been taken. -/
theorem assignment_maintained {duration : Nat}
    (hrun : system.Steps (fun s a => s.Unsaturated a ∧ s.ReAdoptsUndecided a) (start duration) s)
    (hcalm : s.Calm) (hbetween : s.run = .selecting) : s.AssignmentMaintained := by
  have h : s.Maintained := by
    refine hrun.invariant (I := Maintained) ?_ (maintained_start duration)
    intro s a t h hok hs
    exact h.move hok.1 hok.2 (move_of_step hs)
  intro a ha
  have has := h.assigned hcalm
  rw [hbetween] at has
  obtain ⟨w, hw, hi⟩ := has a ha
  exact ⟨w, hw, hi, h.undecided hcalm a w hw hi⟩


def sampleAddress : ServerAddress := ⟨⟨"relay.example.test"⟩, 443⟩

/-- The address is taken out of the assignment and put back while its worker is
connected. -/
theorem assignment_maintained_after_return :
    ∃ s, system.Steps (fun s a => s.Unsaturated a ∧ s.ReAdoptsUndecided a) (start 10) s ∧
      s.Calm ∧ s.run = .selecting ∧ s.applied = [sampleAddress] ∧ s.AssignmentMaintained := by
  have hr : ∃ s ∈ system.execWhile (fun s a => s.Unsaturated a ∧ s.ReAdoptsUndecided a)
      (start 10)
      [.enqueue [sampleAddress], .receive, .beginAdding, .addNext, .acknowledge,
        .worker 0 .firstPoll, .worker 0 .readShutdown, .worker 0 .readIntent,
        .worker 0 (.established .connected), .worker 0 .readIntent,
        .enqueue [], .receive, .visit sampleAddress, .beginAdding, .acknowledge,
        .enqueue [sampleAddress], .receive, .visit sampleAddress, .reAdopt, .beginAdding,
        .addNext, .acknowledge],
      s.Calm ∧ s.run = .selecting ∧ s.applied = [sampleAddress] := by
    decide
  obtain ⟨s, he, hc, hb, ha⟩ := hr
  have hs := Lts.Steps.of_execWhile he
  exact ⟨s, hs, hc, hb, ha, assignment_maintained hs hc hb⟩

/-- The worker reads Retire and returns; before its receivers are dropped the address
is assigned again, and `re_adopt` takes the worker for a live one.  With its completion
taken the assigned address has no slot. -/
theorem assigned_address_left_without_slot :
    ∃ s, system.Steps Unsaturated (start 10) s ∧ s.Calm ∧ s.run = .selecting ∧
      s.applyQueue = [] ∧ s.running = [] ∧ s.applied = [sampleAddress] ∧
      s.workers.lookup sampleAddress = none :=
  Lts.exists_steps
    [.enqueue [sampleAddress], .receive, .beginAdding, .addNext, .acknowledge,
      .worker 0 .firstPoll, .worker 0 .readShutdown,
      .enqueue [], .receive, .visit sampleAddress, .beginAdding, .acknowledge,
      .worker 0 .readIntent,
      .enqueue [sampleAddress], .receive, .visit sampleAddress, .reAdopt, .beginAdding,
      .addNext, .acknowledge,
      .worker 0 .dropReceivers, .worker 0 .finish, .reap 0]
    (by decide)

end Runewarp.Client.AddressController
